import Relocate.Log.Entry
import Relocate.Path
import Relocate.SystemError
import Relocate.Text.Line

namespace Relocate

inductive Task
  | version
  | library
  | worker
  deriving DecidableEq, Repr

/-- What an interpreter takes itself to be started for, from the first word it is given. -/
def Task.ofWord? : String → Option Task
  | "--version" => some .version
  | "-c" => some .library
  | "-u" => some .worker
  | _ => none

/-- What can be seen of a run from outside. -/
inductive Event
  | logged (entry : Log.Entry)
  /-- A program was to be started. If it did start, this is the interpreter that runs, and what that
  takes itself to be started for. -/
  | launched (program : String) (task : Task) (result : Option (Location × Option Task))
  | sent (bytes : Utf8.Bytes)
  | reported (text : String)
  | prompted (text : String)
  deriving DecidableEq, Repr

structure Run (σ : Type) where
  /-- What was done, the latest last. -/
  journal : List Event
  /-- The lines of the input that are not read yet. -/
  input : List Line
  /-- How many line ends the report still takes; no bound if there is none. -/
  room : Option Nat
  /-- How many questions can still be put, and why no more than these; no bound if there is none. -/
  questions : Option (Nat × SystemError)
  engine : σ
  deriving Repr

abbrev Action (τ ε α : Type) := ExceptT ε (StateM τ) α

namespace Run

variable {σ ε : Type}

def record (e : Event) : Action (Run σ) ε Unit :=
  modify fun r => { r with journal := r.journal ++ [e] }

def log (e : Log.Entry) : Action (Run σ) ε Unit := record (.logged e)

end Run

namespace Action

variable {τ ε δ α : Type}

def mapError (f : ε → δ) (a : Action τ ε α) : Action τ δ α :=
  ExceptT.mk do
    match ← a.run with
    | .ok x => return .ok x
    | .error e => return .error (f e)

def ensure (holds : Bool) (e : ε) : Action τ ε Unit := if holds then return else throw e

/-- The result of an action that cannot fail any more. -/
def attempt (a : Action τ ε α) : Action τ δ (Except ε α) := ExceptT.mk (.ok <$> a.run)

end Action

end Relocate
