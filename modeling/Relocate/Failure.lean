import Relocate.SystemError
import Relocate.Text.Split

namespace Relocate

/-- What the readers of JSON and TOML say of text that they refuse. -/
structure Wording where
  json : String → String
  /-- Of a document, and of what in it is out of place if it can be read at all. -/
  toml : String → Option String → String

/-- A word in place of the long accounts that readers give. -/
def Wording.brief : Wording where
  json _ := "JSON"
  toml _ misplaced := (misplaced.map Text.firstLine).getD "syntax error"

inductive ExitStatus
  | guardViolation
  | invalidArguments
  | engineFailure
  | environmentError
  | internalError
  deriving DecidableEq, Repr

def ExitStatus.code : ExitStatus → Nat
  | .guardViolation => 1
  | .invalidArguments => 2
  | .engineFailure => 3
  | .environmentError => 4
  | .internalError => 10

inductive Failure
  /-- A rule of the command forbids what was asked. This is part of the report. -/
  | guard (message : String)
  | invalidArguments (message : String)
  | configuration (message : String)
  /-- The refactoring engine refused. -/
  | engine (code message : String) (traceback : Option String)
  | environment (message : String)
  | io (cause : SystemError)
  | internal (message : String)
  deriving DecidableEq, Repr

namespace Failure

def message : Failure → String
  | .guard m => m
  | .invalidArguments m => s!"invalid arguments: {m}"
  | .configuration m => s!"configuration error: {m}"
  | .engine code m _ => s!"{code}: {m}"
  | .environment m => m
  | .io cause => "IO error: " ++ cause.message
  | .internal m => s!"internal error: {m}"

def status : Failure → ExitStatus
  | .guard _ => .guardViolation
  | .invalidArguments _ => .invalidArguments
  | .configuration _ => .invalidArguments
  | .engine .. => .engineFailure
  | .environment _ => .environmentError
  | .io _ => .internalError
  | .internal _ => .internalError

def isGuard : Failure → Bool
  | .guard _ => true
  | _ => false

def traceback? : Failure → Option String
  | .engine _ _ traceback => traceback
  | _ => none

end Failure

end Relocate
