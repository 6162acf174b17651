import Relocate.Session.Basic
import Relocate.Source.CharIndex

namespace Relocate.Command

open Source (charIndex isMisdeclared)

structure Move where
  file : String
  offset : Nat
  destination : Option String
  deriving DecidableEq, Repr

namespace Move

def question : String := "Enter the new file for the definition"

def notSource : Failure := .guard "The destination must be a python file"

variable {τ : Type}

def source (s : Surroundings τ) (path : String) : Action τ Failure Utf8.Bytes :=
  match s.host.files.read s.host.folder path with
  | .ok data => return data
  | .error e => throw (.io e)

def countedAsBytes : Log.Entry :=
  ⟨.source, .debug, "source is not valid UTF-8, counting it as latin-1", []⟩

/-- The character that a byte offset belongs to. -/
def index (s : Surroundings τ) (data : Utf8.Bytes) (offset : Nat) : Action τ Failure Nat := do
  s.logIf (offset ≤ data.length ∧ isMisdeclared data) countedAsBytes
  match charIndex data offset with
  | .ok n => return n
  | .error e => throw e.failure

def permit (plan : MovePlan) : Except Failure Unit :=
  match plan.kind with
  | .global => .ok ()
  | .module => .error <| .guard <|
    "Cannot move module `" ++ plan.name ++ "` with this command; use `move-module` instead"
  | .method => .error <| .guard <|
    "Cannot move method `" ++ plan.name
      ++ "` to another file; only module-level definitions can be moved"

def plan (s : Surroundings τ) (m : Move) : Action τ Failure MovePlan := do
  let place ← s.resolve m.file .file
  Action.ensure (!place.isFolder) (.invalidArguments (m.file ++ " is a directory, expected a file"))
  let n ← index s (← source s m.file) m.offset
  s.session.beginMove place (some n)

def target (s : Surroundings τ) (m : Move) : Action τ Failure Place := do
  let path ← s.destination m.destination question
  Action.ensure (s.host.isFile path) notSource
  let place ← s.resolve path .file
  Action.ensure (!place.isFolder) notSource
  Action.ensure (← s.session.isSourceFile place) notSource
  return place

def run (s : Surroundings τ) (m : Move) : Action τ Failure Unit := do
  let plan ← m.plan s
  permit plan
  s.report ["Moving definition of `", plan.name, "`\n"]
  s.report ["Definition of `", plan.name, "` is currently at: ", plan.origin.text, "\n"]
  let place ← m.target s
  let changes ← s.session.changesFor plan place
  s.log ⟨.move, .debug, "computed move", changes.values⟩
  s.session.apply changes
  s.report ["Definition of `", plan.name, "` moved to: ", place.text, "\n"]

end Move

end Relocate.Command
