import Relocate.Toml.Scan

namespace Relocate.Toml

open Scan

def isPlain (quote c : Char) : Bool := isCommentChar c && c ≠ quote

def hexDigit? (c : Char) : Option Nat :=
  if '0' ≤ c ∧ c ≤ '9' then some (c.toNat - 48)
  else if 'a' ≤ c ∧ c ≤ 'f' then some (c.toNat - 87)
  else if 'A' ≤ c ∧ c ≤ 'F' then some (c.toNat - 55)
  else none

def isHex (c : Char) : Bool := (hexDigit? c).isSome

def hexNumber (cs : List Char) : Nat := cs.foldl (fun n c => n * 16 + (hexDigit? c).getD 0) 0

def character (n : Nat) : Scan Char :=
  if n.isValidChar then return Char.ofNat n else failure

def escape : Scan Char := do
  match ← eatIf (fun _ => true) with
  | 'b' => return '\x08'
  | 't' => return '\t'
  | 'n' => return '\n'
  | 'f' => return '\x0c'
  | 'r' => return '\r'
  | '"' => return '"'
  | '\\' => return '\\'
  | 'u' => character (hexNumber (← takeExactly isHex 4))
  | 'U' => character (hexNumber (← takeExactly isHex 8))
  | _ => failure

def basicPiece : Scan (List Char) :=
  (takeSome fun c => isPlain '"' c && c ≠ '\\') <|> do
    eat '\\'
    return [← escape]

def literalPiece : Scan (List Char) := takeSome (isPlain '\'')

def afterGap : List Char → List Char
  | '\r' :: '\n' :: s => afterGap s
  | c :: s => if isBlank c ∨ c = '\n' then afterGap s else c :: s
  | [] => []

def joinedLines : Scan (List Char) := do
  eat '\\'
  blanks
  newline
  modify afterGap
  return []

def pieces (piece : Scan (List Char)) : Nat → Scan (List Char)
  | 0 => return []
  | fuel + 1 => do
    match ← maybe piece with
    | none => return []
    | some cs => return cs ++ (← pieces piece fuel)

def singleLine (quote : Char) (piece : Scan (List Char)) (fuel : Nat) : Scan String := do
  eat quote
  let cs ← pieces piece fuel
  eat quote
  return String.ofList cs

/-- One or two quotes inside text on several lines: no third one follows, and the text goes on. -/
def innerQuotes (quote : Char) : Scan (List Char) := do
  let cs ← takeSome (· = quote)
  match ← peek with
  | some _ => if cs.length ≤ 2 then return cs else failure
  | none => failure

/-- The three quotes at the end, with up to two more before them that belong to the text. -/
def lastQuotes (quote : Char) : Scan (List Char) := do
  let cs ← takeSome (· = quote)
  if 3 ≤ cs.length ∧ cs.length ≤ 5 then return cs.drop 3 else failure

/-- Text between three quotes. A line end right after the first three is dropped. -/
def manyLines (quote : Char) (piece : Scan (List Char)) (fuel : Nat) : Scan String := do
  eatAll [quote, quote, quote]
  discard (maybe newline)
  let cs ← pieces (piece <|> innerQuotes quote <|> do newline; return ['\n']) fuel
  return String.ofList (cs ++ (← lastQuotes quote))

def basicText (fuel : Nat) : Scan String := singleLine '"' basicPiece fuel

def literalText (fuel : Nat) : Scan String := singleLine '\'' literalPiece fuel

def quotedText (fuel : Nat) : Scan String :=
  manyLines '"' (joinedLines <|> basicPiece) fuel <|> manyLines '\'' literalPiece fuel
    <|> basicText fuel <|> literalText fuel

end Relocate.Toml
