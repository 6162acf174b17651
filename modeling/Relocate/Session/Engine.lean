import Relocate.Interpreter.Discovery
import Relocate.Session.Basic
import Relocate.Worker.Operations

namespace Relocate.Session

open Utf8 (Bytes)
open Worker (Link MoveReply ChangesReply)

abbrev Act (α : Type) := Action (Run Link) Failure α

def viaWorker {α : Type} (w : Wording) (a : Link.Act α) : Act α :=
  a.mapError (Worker.Error.failure w)

def kindOf? : String → Option MoveKind
  | "global" => some .global
  | "module" => some .module
  | "method" => some .method
  | _ => none

def isPython (path : String) : Bool := ".py".toList.isSuffixOf path.toList

/-- A package moves as its folder; all else lives in a file. -/
def originKind (kind : MoveKind) (path : String) : Kind :=
  if kind = .module ∧ !isPython path then .folder else .file

def planOf (m : MoveReply) : Except Failure MovePlan :=
  match kindOf? m.kind with
  | some kind => .ok ⟨m.handle, m.name, kind, .known m.origin (originKind kind m.origin)⟩
  | none => .error (.internal ("worker reported unknown move kind " ++ Text.quoted m.kind))

def changesOf (c : ChangesReply) : ChangeSet := ⟨c.handle, c.description, c.changed⟩

def ofWorker (h : Host) (root : Bytes) : Session (Run Link) where
  root := root
  resolve := resolver h root
  beginMove place index := do planOf (← viaWorker h.wording (Link.createMove place.path index))
  isSourceFile place := viaWorker h.wording (Link.isPythonFile place.path place.kind.text)
  changesFor plan target := do
    let changes ← viaWorker h.wording (Link.getChanges plan.handle target.path target.kind.text)
    return changesOf changes
  apply changes := do
    viaWorker h.wording (Link.applyChanges changes.handle)
    Run.log ⟨.session, .info, "applied change set", [("files", toString changes.changed.length)]⟩
  importCandidates name := viaWorker h.wording (Link.importCandidates name)

def close (h : Host) : Act Unit := viaWorker h.wording Link.shutdown

structure Project where
  root : String
  /-- The engine's own folder in the project. -/
  libraryFolder : Option String
  deriving DecidableEq, Repr

def canonicalRoot (h : Host) (root : String) : Except Failure Bytes :=
  match h.files.canonicalized h.folder root with
  | .ok l => .ok l.written
  | .error e =>
    .error (.invalidArguments ("project root " ++ root ++ " cannot be opened: " ++ e.message))

/-- Opens a project in a new worker, which is let go if it refuses. -/
def start (h : Host) (choice : Interpreter.Choice) (p : Project) : Act (Session (Run Link)) := do
  let found ← (Interpreter.discover h choice).mapError Interpreter.Error.failure
  let root ← canonicalRoot h p.root
  viaWorker h.wording (Link.start h found.path)
  match ← (viaWorker h.wording (Link.openProject (Utf8.textLossy root) p.libraryFolder)).attempt with
  | .error e =>
    close h
    throw e
  | .ok reported =>
    let version := (← get).engine.version
    Run.log ⟨.session, .info, "opened rope project",
      [("root", Utf8.textLossy root), ("python", found.version.text),
        ("rope", Text.quoted (found.library.version.getD "unknown"))]⟩
    Run.log ⟨.session, .debug, "rope project address",
      [("reported", reported), ("worker", Text.quoted (version.getD "unknown"))]⟩
    return ofWorker h root

end Relocate.Session
