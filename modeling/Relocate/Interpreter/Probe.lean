import Relocate.Host
import Relocate.Interpreter.Attempt
import Relocate.Interpreter.Version

namespace Relocate.Interpreter

variable {σ : Type}

def ask (h : Host) (path : String) (task : Task) : Action (Run σ) Error Interpreter :=
  (h.launch path task).mapError fun e => .notExecuted path e.message

/-- Where a version is looked for: in what the interpreter printed, or in its complaints if it
printed nothing. -/
def versionText (o : Output) : String :=
  Text.trimmed (Utf8.textLossy (if o.stdout.isEmpty then o.stderr else o.stdout))

/-- The version that a text tells. If there is none, the error has the text in which it was looked
for. -/
def Version.read (s : String) : Except Error Version :=
  match ofText? s with
  | some v => .ok v
  | none => .error (.invalidVersion (core s))

def readVersion (path : String) (o : Output) : Except Error Version :=
  if !o.success then .error (.notExecuted path (Utf8.textLossy o.stderr))
  else Version.read (versionText o)

def askVersion (h : Host) (path : String) : Action (Run σ) Error Version := do
  readVersion path (← ask h path .version).version

structure Library where
  version : Option String
  deriving DecidableEq, Repr

/-- The library's version, as far as the interpreter prints one. -/
def readLibrary (o : Output) : Option Library :=
  if !o.success then none
  else
    let text := Text.trimmed (Utf8.textLossy o.stdout)
    some ⟨if text = "" then none else some text⟩

def askLibrary (h : Host) (path : String) : Action (Run σ) Error (Option Library) := do
  return readLibrary (← ask h path .library).library

end Relocate.Interpreter
