import Relocate.Failure
import Relocate.Run
import Relocate.Text.Blank

namespace Relocate.Prompt

inductive Error
  | endOfInput
  | blank
  | io (cause : SystemError)
  /-- The question could not be put. -/
  | unasked (cause : SystemError)
  deriving DecidableEq, Repr

def Error.message : Error → String
  | .endOfInput => "no input received"
  | .blank => "an answer is required"
  | .io cause | .unasked cause => "IO error: " ++ cause.message

def Error.failure : Error → Failure
  | .io cause | .unasked cause => .internal cause.message
  | e => .invalidArguments ("destination prompt: " ++ e.message)

def answer (line : Line) : Except Error String :=
  match line.text? with
  | none => .error (.io .notText)
  | some text => if Text.trimmed text = "" then .error .blank else .ok (Text.trimmed text)

variable {σ : Type}

def put : Action (Run σ) Error Unit := do
  match (← get).questions with
  | none => return
  | some (0, e) => throw (.unasked e)
  | some (n + 1, e) => modify fun r => { r with questions := some (n, e) }

/-- Writes the question and reads the answer. At the end of the input the line is ended. -/
def ask (question : String) : Action (Run σ) Error String := do
  put
  Run.record (.prompted (question ++ ": "))
  match (← get).input with
  | [] =>
    Run.record (.prompted "\n")
    throw .endOfInput
  | line :: rest =>
    modify fun r => { r with input := rest }
    answer line

end Relocate.Prompt
