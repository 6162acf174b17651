import Relocate.Failure
import Relocate.Source.Encoding

namespace Relocate.Source

open Utf8 (Bytes)

inductive OffsetError
  | pastEnd (offset size : Nat)
  | multibyteEncoding (name : String)
  | insideCharacter (offset : Nat)
  deriving DecidableEq, Repr

def OffsetError.message : OffsetError → String
  | .pastEnd offset size => s!"offset {offset} is past end of file ({size} bytes)"
  | .multibyteEncoding name => s!"byte offsets in {name}-encoded files are not supported"
  | .insideCharacter offset => s!"offset {offset} falls inside a multi-byte character"

def OffsetError.failure (e : OffsetError) : Failure := .invalidArguments e.message

/-- The characters of `s`, a carriage return and a line feed after it counted once. `afterReturn`
tells that the character before `s` is a carriage return. -/
def count (afterReturn : Bool) : List Char → Nat
  | [] => 0
  | c :: s => (if afterReturn ∧ c = '\n' then 0 else 1) + count (c = '\r') s

def bytewise (s : Bytes) : List Char := s.map fun b => Char.ofNat b.toNat

def isUtf8 (s : Bytes) : Bool := (Utf8.decode s).isSome

/-- Whether a file should be UTF-8 and is not, so that its bytes are counted instead. -/
def isMisdeclared (data : Bytes) : Bool :=
  match encoding data with
  | .utf8 _ => !isUtf8 data
  | _ => false

def byteOrderMark : Bytes := [0xEF, 0xBB, 0xBF]

def markLength (dropsMark : Bool) (data : Bytes) : Nat :=
  if dropsMark ∧ byteOrderMark.isPrefixOf data then byteOrderMark.length else 0

def charactersBetween (data : Bytes) (start stop : Nat) : List Char :=
  (Utf8.decode ((data.take stop).drop start)).getD []

/-- The character offset in the decoded text that belongs to a byte offset in the file. -/
def charIndex (data : Bytes) (offset : Nat) : Except OffsetError Nat :=
  if data.length < offset then .error (.pastEnd offset data.length)
  else
    match encoding data with
    | .multibyte name => .error (.multibyteEncoding name)
    | .bytewise => .ok (count false (bytewise (data.take offset)))
    | .utf8 dropsMark =>
      if !isUtf8 data then .ok (count false (bytewise (data.take offset)))
      else if !Utf8.isBoundary data offset then .error (.insideCharacter offset)
      else
        let start := min (markLength dropsMark data) offset
        .ok (count false (charactersBetween data start offset))

end Relocate.Source
