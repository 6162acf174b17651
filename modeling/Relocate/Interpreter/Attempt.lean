import Relocate.Failure

namespace Relocate.Interpreter

inductive Origin
  | flag
  | environment
  | settings
  | virtualEnvironment
  | condaEnvironment
  | searchPath
  deriving DecidableEq, Repr

namespace Origin

def all : List Origin :=
  [.flag, .environment, .settings, .virtualEnvironment, .condaEnvironment, .searchPath]

def text : Origin → String
  | .flag => "--python flag"
  | .environment => "$ROPIFY_PYTHON"
  | .settings => ".ropify/config.toml"
  | .virtualEnvironment => "$VIRTUAL_ENV"
  | .condaEnvironment => "$CONDA_PREFIX"
  | .searchPath => "$PATH"

/-- An explicit choice stands: if it cannot be used, no other interpreter takes its place. -/
def isExplicit : Origin → Bool
  | .flag | .environment | .settings => true
  | _ => false

end Origin

/-- One step of the search, which did not succeed. -/
structure Attempt where
  source : String
  found : Option String
  version : Option String
  reason : Option String
  deriving DecidableEq, Repr

namespace Attempt

def notSet (source : String) : Attempt := ⟨source, none, none, some "not set"⟩

def notFound (source : String) : Attempt := ⟨source, none, none, some "not found"⟩

def rejected (source path : String) (version : Option String) (reason : String) : Attempt :=
  ⟨source, some path, version, some reason⟩

def findings (a : Attempt) : String :=
  match a.found with
  | none => a.reason.getD ""
  | some path =>
    "found " ++ path ++ (a.version.elim "" fun v => " (" ++ v ++ ")")
      ++ a.reason.elim "" fun r => " - " ++ r

def text (a : Attempt) : String := a.source ++ ": " ++ a.findings

def listing (n : Nat) : List Attempt → String
  | [] => ""
  | a :: rest => "  " ++ toString n ++ ". " ++ a.text ++ "\n" ++ listing (n + 1) rest

end Attempt

inductive Error
  | noneUsable (attempts : List Attempt)
  | unusable (path source reason : String)
  | notExecuted (path reason : String)
  | invalidVersion (text : String)
  deriving DecidableEq, Repr

namespace Error

def noneUsableText (attempts : List Attempt) : String :=
  "no Python interpreter with rope found\n\n"
    ++ "ropify requires Python 3.8+ with rope installed.\n\n"
    ++ (if attempts.isEmpty then ""
        else "Resolution attempted:\n" ++ Attempt.listing 1 attempts ++ "\n")
    ++ "Remediation:\n"
    ++ "  a) Install rope: python3 -m pip install rope\n"
    ++ "  b) Point at an interpreter: export ROPIFY_PYTHON=/path/to/python3\n"
    ++ "  c) Pass it directly: ropify --python /path/to/python3 ...\n"

def message : Error → String
  | .noneUsable attempts => noneUsableText attempts
  | .unusable path source reason => s!"Python at {path} ({source}) cannot be used: {reason}"
  | .notExecuted path reason => s!"failed to execute Python at {path}: {reason}"
  | .invalidVersion text => s!"invalid Python version string: {text}"

def failure (e : Error) : Failure := .environment e.message

end Error

end Relocate.Interpreter
