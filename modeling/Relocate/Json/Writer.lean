import Relocate.Json.Value
import Relocate.Number.Shortest

namespace Relocate.Json

def hexDigit (n : Nat) : Char := Char.ofNat (if n < 10 then 48 + n else 87 + n)

/-- A quote, a backslash and the characters below the space are escaped, all others stand for
themselves. -/
def escape (c : Char) : List Char :=
  if c = '"' then ['\\', '"']
  else if c = '\\' then ['\\', '\\']
  else if c = '\n' then ['\\', 'n']
  else if c = '\r' then ['\\', 'r']
  else if c = '\t' then ['\\', 't']
  else if c = '\x08' then ['\\', 'b']
  else if c = '\x0c' then ['\\', 'f']
  else if c.toNat < 32 then ['\\', 'u', '0', '0', hexDigit (c.toNat / 16), hexDigit (c.toNat % 16)]
  else [c]

def writeString (s : String) : List Char := '"' :: (s.toList.flatMap escape ++ ['"'])

mutual

def write : Json → List Char
  | .null => "null".toList
  | .bool true => "true".toList
  | .bool false => "false".toList
  | .int n => (toString n).toList
  | .float x => x.compactText.toList
  | .string s => writeString s
  | .array [] => ['[', ']']
  | .array (v :: vs) => '[' :: (write v ++ writeItems vs)
  | .object [] => ['\x7b', '\x7d']
  | .object ((k, v) :: fs) => '\x7b' :: (writeString k ++ ':' :: (write v ++ writeFields fs))

def writeItems : List Json → List Char
  | [] => [']']
  | v :: vs => ',' :: (write v ++ writeItems vs)

def writeFields : List (String × Json) → List Char
  | [] => ['\x7d']
  | (k, v) :: fs => ',' :: (writeString k ++ ':' :: (write v ++ writeFields fs))

end

def text (v : Json) : String := String.ofList (write v)

end Relocate.Json
