import Relocate.Log.Entry
import Relocate.Number.Natural
import Relocate.Text.Blank
import Relocate.Text.Split
import Relocate.Text.Word

namespace Relocate.Log

/-- Shows what is not more verbose than `most`, among the entries it speaks of. -/
structure Directive where
  /-- How the names of the parts begin. -/
  target : Option String
  /-- Confines the directive to spans of time. No entry of this program lies in one. -/
  inSpan : Bool
  /-- A field that entries must have, and whether it must have a certain value. -/
  field : Option (String × Bool)
  most : Nat
  deriving DecidableEq, Repr

def lowered (s : List Char) : String := String.ofList (s.map Char.toLower)

def rank? (s : List Char) : Option Nat :=
  match (Natural.read Natural.max64 s).toOption.filter (· ≤ Level.trace.rank) with
  | some n => some n
  | none =>
    [("off", 0), ("error", 1), ("warn", 2), ("info", 3), ("debug", 4), ("trace", 5)].lookup
      (lowered s)

namespace Directive

def general (most : Nat) : Directive := ⟨none, false, none, most⟩

def allOf (target : List Char) : Directive :=
  ⟨some (String.ofList target), false, none, Level.trace.rank⟩

def withLevel (d : Directive) (s : List Char) : Option Directive :=
  if s.isEmpty then some { d with most := Level.trace.rank }
  else (rank? s).map fun n => { d with most := n }

def afterBracket (d : Directive) (s t : List Char) : Option Directive :=
  match s with
  | [] => d.withLevel []
  | '=' :: _ => d.withLevel (t.drop 1)
  | _ => none

def fieldOf (s : List Char) : String × Bool :=
  (String.ofList (s.takeWhile (· ≠ '=')), s.contains '=')

def ofField (d : Directive) (s t : List Char) : Option Directive :=
  let n := (s.takeWhile (· ≠ '\x7d')).length
  match s.drop n with
  | '\x7d' :: ']' :: rest =>
    if n = 0 then none
    else afterBracket { d with field := some (fieldOf (t.take n)) } rest (t.drop (n + 2))
  | _ => none

def ofBracket (target : Option String) (s t : List Char) : Option Directive :=
  let n := (s.takeWhile fun c => c ≠ ']' && c ≠ '\x7b').length
  match s.drop n with
  | ']' :: rest => afterBracket ⟨target, true, none, 0⟩ rest (t.drop (n + 1))
  | '\x7b' :: rest => ofField ⟨target, n ≠ 0, none, 0⟩ rest (t.drop (n + 1))
  | _ => none

def beginsName (c : Char) : Bool := c = '-' || c = ':' || c = '_' || Text.isWordChar c

/-- The form of a directive is that of `s`, its text without blanks at the ends; names and levels
are cut from the text `t` as it stands, at the same places. -/
def ofForm (s t : List Char) : Option Directive :=
  match s with
  | [] => none
  | '[' :: rest => ofBracket none rest (t.drop 1)
  | c :: _ =>
    if !beginsName c then none
    else
      let n := (s.takeWhile fun c => c ≠ '=' && c ≠ '[').length
      let target := some (String.ofList (t.take n))
      match s.drop n with
      | [] => some ((rank? t).elim (allOf t) general)
      | '=' :: _ => withLevel ⟨target, false, none, 0⟩ (t.drop (n + 1))
      | _ :: rest => ofBracket target rest (t.drop (n + 1))

def ofText? (s : String) : Option Directive := ofForm (Text.trim s.toList) s.toList

def covers (d : Directive) (e : Entry) : Bool :=
  !d.inSpan
    && d.target.all (fun t => t.toList.isPrefixOf e.part.target.toList)
    && d.field.all fun f => !f.2 && e.fields.contains f.1

/-- Of two directives for one entry the one with the longer target is more specific, then the one
with a field. Between fields their names decide. -/
def isLessSpecific (c d : Directive) : Bool :=
  let length (d : Directive) : Nat := d.target.elim 0 fun t => t.utf8ByteSize + 1
  let field (d : Directive) : String := d.field.elim "" Prod.fst
  length c < length d || (length c = length d && field c < field d)

def prefer (c : Option Directive) (d : Directive) : Option Directive :=
  match c with
  | none => some d
  | some c => if d.isLessSpecific c then some c else some d

end Directive

abbrev Filter := List Directive

namespace Filter

def ofText? (s : String) : Option Filter := do
  let ds ← ((Text.pieces ',' s).filter (· ≠ "")).mapM Directive.ofText?
  return if ds.isEmpty then [.general Level.error.rank] else ds

/-- The filter of a run. What the environment says counts before the command line, if it can be
read. -/
def choose (word : Option String) (level : Level) : Filter :=
  (word.bind ofText?).getD [.general level.rank]

def shows (f : Filter) (e : Entry) : Bool :=
  match (f.filter (·.covers e)).foldl Directive.prefer none with
  | none => false
  | some d => e.level.rank ≤ d.most

end Filter

end Relocate.Log
