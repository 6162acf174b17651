import Relocate.Failure
import Relocate.Files.FileSystem
import Relocate.Files.Script
import Relocate.Run
import Relocate.Worker.Pipes

namespace Relocate

structure Output where
  success : Bool
  stdout : Utf8.Bytes
  stderr : Utf8.Bytes
  deriving Repr

def Output.empty : Output := ⟨true, [], []⟩

structure Interpreter where
  version : Output
  library : Output
  worker : Worker.Pipes
  /-- Started as a worker that nobody talks to. -/
  idle : Output
  deriving Repr

namespace Interpreter

def output (i : Interpreter) : Option Task → Output
  | some .version => i.version
  | some .library => i.library
  | some .worker => i.idle
  | none => .empty

def pipes (i : Interpreter) : Option Task → Worker.Pipes
  | some .worker => i.worker
  | task => .ofStream (i.output task).stdout (some ⟨0, 0⟩)

/-- An interpreter that takes itself to be started for `task`, whatever it is started for. -/
def doing (i : Interpreter) (task : Option Task) : Interpreter :=
  ⟨i.output task, i.output task, i.pipes task, i.output task⟩

end Interpreter

structure Host where
  files : FileSystem
  folder : Location
  environment : List (String × String)
  interpreters : List (Location × Interpreter)
  /-- Whether the script that a worker runs can be put in a file of its own. -/
  script : Except SystemError Unit
  wording : Wording

namespace Host

def environment? (h : Host) (name : String) : Option String := h.environment.lookup name

def exists? (h : Host) (path : String) : Bool := h.files.exists? h.folder path

def isFile (h : Host) (path : String) : Bool := h.files.isFile h.folder path

def isFolder (h : Host) (path : String) : Bool := h.files.isFolder h.folder path

structure Running where
  file : Location
  interpreter : Interpreter
  /-- The word that scripts on the way to it have put before its arguments. -/
  word : Option String

def Running.task? (r : Running) (task : Task) : Option Task :=
  match r.word with
  | none => some task
  | some w => Task.ofWord? w

/-- The executable file at a path, and what is in it. The empty path stands for the working folder,
which does not run. -/
def executable (h : Host) (path : String) : Except SystemError (Location × Utf8.Bytes) := do
  let l ← h.files.locate h.folder (if path = "" then "." else path)
  match h.files.entry? l with
  | some (.file data true) => return (l, data)
  | _ => throw .permissionDenied

/-- Starts the program at a path, by way of fewer scripts than `links`. A script has the program
that it names started, with its argument, or else its own path, as the first word. An interpreter
may be a script itself. -/
def follow (h : Host) (word : Option String) (path : String) : Nat → Except SystemError Running
  | 0 => do
    discard (h.executable path)
    throw .tooManyLinks
  | links + 1 => do
    let (l, data) ← h.executable path
    match h.interpreters.lookup l, Script.header? data with
    | some i, header =>
      if links = 0 ∧ header.isSome then throw .tooManyLinks else return ⟨l, i, word⟩
    | none, none => throw .badExecutable
    | none, some s => h.follow (some (s.argument.getD path)) s.program links

def maxLinks : Nat := 6

def startAt (h : Host) (path : String) : Except SystemError Running := h.follow none path maxLinks

/-- Looks for a program in folders, the first that can be started. A program that may not be started
is passed over, and that is the answer if there is no other. -/
def startIn (h : Host) (name : String) (denied : Bool) (last : SystemError) :
    List String → Except SystemError Running
  | [] => .error (if denied then .permissionDenied else last)
  | folder :: rest =>
    match h.startAt (if folder = "" then name else folder ++ "/" ++ name) with
    | .ok found => .ok found
    | .error .permissionDenied => h.startIn name true .permissionDenied rest
    | .error .noSuchEntry => h.startIn name denied .noSuchEntry rest
    | .error .notDirectory => h.startIn name denied .notDirectory rest
    | .error e => .error e

def defaultSearch : String := "/bin:/usr/bin"

def searchFolders (h : Host) : List String :=
  Text.pieces ':' ((h.environment? "PATH").getD defaultSearch)

def start (h : Host) (program : String) : Except SystemError Running :=
  if program.toList.contains '\x00' then .error .nulInArgument
  else if program = "" then .error .noSuchEntry
  else if program.toList.contains '/' then h.startAt program
  else h.startIn program false .noSuchEntry h.searchFolders

def isProgram (h : Host) (path : String) : Bool :=
  match h.files.locate h.folder path with
  | .ok l =>
    match h.files.entry? l with
    | some (.file _ executable) => executable
    | _ => false
  | .error _ => false

/-- A folder in which `~` at the front stands for the home folder, if there is one. -/
def expanded (h : Host) (folder : String) : String :=
  match Text.pieces '/' folder, (h.environment? "HOME").filter (· ≠ "") with
  | "~" :: rest, some home =>
    (rest.filter fun name => name ≠ "" ∧ name ≠ ".").foldl Path.joinText home
  | _, _ => folder

def which? (h : Host) (name : String) : Option String := do
  let search ← h.environment? "PATH"
  let paths := (Text.pieces ':' search).map fun folder => Path.joinText (h.expanded folder) name
  paths.find? h.isProgram

/-- Starts a program, which is an event of the run even if it does not succeed. -/
def launch {σ : Type} (h : Host) (program : String) (task : Task) :
    Action (Run σ) SystemError Interpreter := do
  match h.start program with
  | .ok r =>
    Run.record (.launched program task (some (r.file, r.task? task)))
    return r.interpreter.doing (r.task? task)
  | .error e =>
    Run.record (.launched program task none)
    throw e

end Host

end Relocate
