import Relocate.Number.Natural
import Relocate.Text.Blank
import Relocate.Text.Split

namespace Relocate.Interpreter

structure Version where
  major : UInt32
  minor : UInt32
  patch : UInt32
  deriving DecidableEq, Repr

namespace Version

def minimum : Version := ⟨3, 8, 0⟩

def text (v : Version) : String :=
  toString v.major.toNat ++ "." ++ toString v.minor.toNat ++ "." ++ toString v.patch.toNat

def order (v w : Version) : Ordering :=
  ((compare v.major w.major).then (compare v.minor w.minor)).then (compare v.patch w.patch)

def meetsMinimum (v : Version) : Bool := v.order minimum != .lt

def afterName (s : List Char) : List Char :=
  if "Python ".toList.isPrefixOf s then s.drop "Python ".length else s

def core (s : String) : String := String.ofList (Text.trim (afterName s.toList))

def number? (s : List Char) : Option UInt32 :=
  (Natural.read Natural.max32 s).toOption.map Nat.toUInt32

/-- The digits at the front; zero if there are none or they say too much. -/
def patchNumber (s : List Char) : UInt32 := (number? (s.takeWhile Char.isDigit)).getD 0

def ofParts? : List (List Char) → Option Version
  | major :: minor :: rest => do
    return ⟨← number? major, ← number? minor, patchNumber (rest.headD [])⟩
  | _ => none

def ofText? (s : String) : Option Version := ofParts? (Text.splitAt '.' (core s).toList)

end Version

end Relocate.Interpreter
