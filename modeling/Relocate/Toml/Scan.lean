namespace Relocate.Toml

abbrev Scan (α : Type) := StateT (List Char) Option α

namespace Scan

def eat (c : Char) : Scan Unit := fun
  | [] => none
  | d :: s => if c = d then some ((), s) else none

def eatAll (cs : List Char) : Scan Unit := fun s =>
  if cs.isPrefixOf s then some ((), s.drop cs.length) else none

def eatIf (p : Char → Bool) : Scan Char := fun
  | [] => none
  | c :: s => if p c then some (c, s) else none

def takeWhile (p : Char → Bool) : Scan (List Char) := fun s => some (s.takeWhile p, s.dropWhile p)

def takeSome (p : Char → Bool) : Scan (List Char) := fun s =>
  if (s.takeWhile p).isEmpty then none else some (s.takeWhile p, s.dropWhile p)

def takeExactly (p : Char → Bool) : Nat → Scan (List Char)
  | 0 => return []
  | n + 1 => do
    let c ← eatIf p
    return c :: (← takeExactly p n)

def peek : Scan (Option Char) := fun s => some (s.head?, s)

def maybe {α : Type} (a : Scan α) : Scan (Option α) := fun s =>
  match a s with
  | some (x, r) => some (some x, r)
  | none => some (none, s)

def atEnd : Scan Bool := fun s => some (s.isEmpty, s)

def all? {α : Type} (a : Scan α) (s : List Char) : Option α :=
  match a s with
  | some (x, []) => some x
  | _ => none

end Scan

open Scan

def isBlank (c : Char) : Bool := c = ' ' || c = '\t'

def blanks : Scan Unit := do discard (takeWhile isBlank)

def newline : Scan Unit := eatAll ['\n'] <|> eatAll ['\r', '\n']

/-- Characters that may stand in a comment: all but the controls, of which the tab may. -/
def isCommentChar (c : Char) : Bool := c = '\t' || (0x20 ≤ c.toNat && c.toNat ≠ 0x7F)

def comment : Scan Unit := do
  eat '#'
  discard (takeWhile isCommentChar)

def lineEnd : Scan Unit := do
  if !(← atEnd) then newline

def restOfLine : Scan Unit := do
  blanks
  discard (maybe comment)
  lineEnd

def gap : Scan Unit :=
  (do discard (takeSome isBlank)) <|> newline <|> (do comment; newline)

/-- Blanks, comments and line ends, of at most `fuel` pieces. -/
def gaps : Nat → Scan Unit
  | 0 => return
  | fuel + 1 => do
    if (← maybe gap).isSome then gaps fuel

end Relocate.Toml
