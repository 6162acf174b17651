import Relocate.Proofs.Worker.Operations

namespace Relocate.Worker.Link

open Relocate.Action

inductive Operation
  | send (name : String) (parameters : Fields)
  | openProject (root : String) (libraryFolder : Option String)
  | createMove (path : String) (index : Option Nat)
  | isPythonFile (path kind : String)
  | getChanges (move destination kind : String)
  | applyChanges (changes : String)
  | importCandidates (name : String)
  | shutdown

namespace Operation

def perform : Operation → Act Unit
  | .send name parameters => discard (Link.send name parameters)
  | .openProject root folder => discard (Link.openProject root folder)
  | .createMove path index => discard (Link.createMove path index)
  | .isPythonFile path kind => discard (Link.isPythonFile path kind)
  | .getChanges move destination kind => discard (Link.getChanges move destination kind)
  | .applyChanges changes => Link.applyChanges changes
  | .importCandidates name => discard (Link.importCandidates name)
  | .shutdown => Link.shutdown

def name : Operation → String
  | .send name _ => name
  | .openProject .. => "open_project"
  | .createMove .. => "create_move"
  | .isPythonFile .. => "is_python_file"
  | .getChanges .. => "get_changes"
  | .applyChanges _ => "apply_changes"
  | .importCandidates _ => "import_candidates"
  | .shutdown => "shutdown"

def parameters : Operation → Fields
  | .send _ parameters => parameters
  | .openProject root folder => [("root", text root), ("ropefolder", Json.optional text folder)]
  | .createMove path index =>
    [("path", text path), ("offset", Json.optional (fun n => .int n) index)]
  | .isPythonFile path kind => [("path", text path), ("kind", text kind)]
  | .getChanges move destination kind =>
    [("move", text move), ("destination", text destination), ("kind", text kind)]
  | .applyChanges changes => [("changes", text changes)]
  | .importCandidates name => [("name", text name)]
  | .shutdown => []

@[reducible]
def Result : Operation → Type
  | .send .. => Reply
  | .openProject .. => String
  | .createMove .. => MoveReply
  | .isPythonFile .. => Bool
  | .getChanges .. => ChangesReply
  | .applyChanges _ => Unit
  | .importCandidates _ => List String
  | .shutdown => Unit

def run : (o : Operation) → Act o.Result
  | .send name parameters => Link.send name parameters
  | .openProject root folder => Link.openProject root folder
  | .createMove path index => Link.createMove path index
  | .isPythonFile path kind => Link.isPythonFile path kind
  | .getChanges move destination kind => Link.getChanges move destination kind
  | .applyChanges changes => Link.applyChanges changes
  | .importCandidates name => Link.importCandidates name
  | .shutdown => Link.shutdown

def read : (o : Operation) → Reply → Except Error o.Result
  | .send .., reply => .ok reply
  | .openProject .., reply =>
    match (Fields.get? reply.data "root").bind Json.string? with
    | some s => .ok s
    | none => .error (.invalidReply "missing root in open_project response")
  | .createMove .., reply => (MoveReply.ofData reply.data).mapError .data
  | .isPythonFile .., reply =>
    .ok (((Fields.get? reply.data "python_file").bind Json.bool?).getD false)
  | .getChanges .., reply => (ChangesReply.ofData reply.data).mapError .data
  | .applyChanges _, _ => .ok ()
  | .importCandidates _, reply => (modulesOfData reply.data).mapError .data
  | .shutdown, _ => .ok ()

/-- An operation is one request, and what is read from its reply. -/
theorem run_eq {o : Operation} (h : o ≠ .shutdown) :
    o.run = (Link.send o.name o.parameters).reading o.read := by
  cases o with
  | send name parameters => exact (reading_ok _).symm
  | openProject root folder => exact openProject_eq root folder
  | createMove path index => exact createMove_eq path index
  | isPythonFile path kind => exact isPythonFile_eq path kind
  | getChanges move destination kind => exact getChanges_eq move destination kind
  | applyChanges changes => exact applyChanges_eq changes
  | importCandidates name => exact importCandidates_eq name
  | shutdown => exact absurd rfl h

end Operation

theorem perform_eq_run (o : Operation) (r : Run Link) :
    (exec o.perform r).2 = (exec o.run r).2 := by
  cases o with
  | applyChanges changes => rfl
  | shutdown => rfl
  | _ => rw [Operation.perform, discard_eq, exec_reading]; rfl

theorem exec_run {o : Operation} (h : o ≠ .shutdown) (r : Run Link) :
    exec o.run r = ((exec (send o.name o.parameters) r).1.bind o.read,
      (exec (send o.name o.parameters) r).2) := by
  rw [Operation.run_eq h, exec_reading]

theorem perform_state {o : Operation} (h : o ≠ .shutdown) (r : Run Link) :
    (exec o.perform r).2 = (exec (send o.name o.parameters) r).2 := by
  rw [perform_eq_run, exec_run h]

theorem exec_shutdown_running {r : Run Link} (hr : r.engine.isRunning = true) :
    exec shutdown r = (.ok (), { (exec (send "shutdown" []) r).2 with
      journal := (exec (send "shutdown" []) r).2.journal ++
        [.logged ⟨.worker, .debug, "rope worker shut down", []⟩]
      engine := (exec (send "shutdown" []) r).2.engine.released }) := by
  rw [shutdown, exec_bind_of_ok (exec_get r), if_pos hr]
  rw [exec_bind_of_ok (exec_attempt (send "shutdown" []) r), exec_bind_of_ok (exec_release _)]
  rfl

theorem exec_shutdown_idle {r : Run Link} (hr : r.engine.isRunning = false) :
    exec shutdown r = (.ok (), r) := by
  rw [shutdown, exec_bind_of_ok (exec_get r), hr]
  rfl

theorem perform_idle (o : Operation) {r : Run Link} (hr : r.engine.isRunning = false) :
    (exec o.perform r).2 = r := by
  by_cases ho : o = .shutdown
  · rw [ho, Operation.perform, exec_shutdown_idle hr]
  · rw [perform_state ho, exec_send_idle o.name o.parameters (pipes_of_idle hr)]

end Relocate.Worker.Link
