import Relocate.Interpreter.Probe

namespace Relocate.Interpreter

variable {σ : Type}

structure Choice where
  flag : Option String
  settings : Option String
  deriving DecidableEq, Repr

structure Found where
  path : String
  version : Version
  library : Library
  origin : Origin
  deriving DecidableEq, Repr

def tooOld : String := "version too old (need " ++ Version.minimum.text ++ "+)"

/-- Checks one candidate, from the cheapest condition on. -/
def validate (h : Host) (origin : Origin) (path : String) : Action (Run σ) Attempt Found := do
  let reject (version : Option Version) (reason : String) : Attempt :=
    .rejected origin.text path (version.map Version.text) reason
  if !h.exists? path then throw (reject none "path does not exist")
  let version ← (askVersion h path).mapError fun e => reject none e.message
  if !version.meetsMinimum then throw (reject (some version) tooOld)
  match ← (askLibrary h path).mapError fun e => reject (some version) e.message with
  | none => throw (reject (some version) "rope not installed")
  | some library =>
    Run.log ⟨.discovery, .info, "resolved Python interpreter",
      [("python", path), ("version", version.text), ("source", origin.text)]⟩
    return ⟨path, version, library, origin⟩

def explicit (h : Host) (c : Choice) : List (Origin × Option String) :=
  [(.flag, c.flag), (.environment, h.environment? "ROPIFY_PYTHON"), (.settings, c.settings)]

def chosen? (sources : List (Origin × Option String)) : Option (Origin × String) :=
  sources.findSome? fun s => s.2.map fun path => (s.1, path)

def names : List String := ["python3", "python"]

def inEnvironment (h : Host) (folder : String) : List String :=
  (names.map fun name => Path.joinText (Path.joinText folder "bin") name).filter h.exists?

/-- What is to be tried, or said, after explicit choices. -/
inductive Stop
  | candidate (origin : Origin) (path : String)
  | note (attempt : Attempt)
  deriving DecidableEq, Repr

def environmentStops (h : Host) (origin : Origin) (name : String) : List Stop :=
  match h.environment? name with
  | none => [.note (.notSet origin.text)]
  | some folder =>
    match inEnvironment h folder with
    | [] => [.note (.notFound origin.text)]
    | paths => paths.map (.candidate origin)

def searchStops (h : Host) : List Stop :=
  match names.filterMap h.which? with
  | [] => [.note (.notFound "$PATH (python3/python)")]
  | paths => paths.map (.candidate .searchPath)

def stops (h : Host) : List Stop :=
  [Origin.flag, .environment, .settings].map (fun o => .note (.notSet o.text))
    ++ environmentStops h .virtualEnvironment "VIRTUAL_ENV"
    ++ environmentStops h .condaEnvironment "CONDA_PREFIX" ++ searchStops h

/-- Goes along the stops to the first interpreter that can be used. `done` holds what was tried, the
latest first. -/
def search (h : Host) (done : List Attempt) : List Stop → Action (Run σ) Error Found
  | [] => throw (.noneUsable done.reverse)
  | .note a :: rest => search h (a :: done) rest
  | .candidate origin path :: rest => do
    match ← (validate h origin path).attempt with
    | .ok found => return found
    | .error a => search h (a :: done) rest

def discover (h : Host) (c : Choice) : Action (Run σ) Error Found :=
  match chosen? (explicit h c) with
  | some (origin, path) =>
    (validate h origin path).mapError fun a => .unusable path origin.text (a.reason.getD "unknown")
  | none => search h [] (stops h)

end Relocate.Interpreter
