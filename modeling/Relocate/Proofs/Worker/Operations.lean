import Relocate.Proofs.Json.Fields
import Relocate.Proofs.Worker.Exchange
import Relocate.Worker.Operations

namespace Relocate.Worker

open Relocate.Action

namespace Link

theorem fromData_eq {α : Type} (d : Except DataError α) :
    fromData d = liftM (d.mapError Error.data) := by
  cases d <;> rfl

theorem openProject_eq (root : String) (folder : Option String) :
    openProject root folder = (send "open_project" [("root", .string root),
      ("ropefolder", Json.optional Json.string folder)]).reading fun reply =>
        match (Fields.get? reply.data "root").bind Json.string? with
        | some s => .ok s
        | none => .error (.invalidReply "missing root in open_project response") := by
  refine bind_congr fun reply => ?_
  dsimp only
  cases (Fields.get? reply.data "root").bind Json.string? <;> rfl

theorem createMove_eq (path : String) (index : Option Nat) :
    createMove path index = (send "create_move" [("path", .string path),
      ("offset", Json.optional (fun n => .int n) index)]).reading fun reply =>
        (MoveReply.ofData reply.data).mapError .data :=
  bind_congr fun _ => fromData_eq _

theorem isPythonFile_eq (path kind : String) :
    isPythonFile path kind = (send "is_python_file" [("path", .string path),
      ("kind", .string kind)]).reading fun reply =>
        .ok (((Fields.get? reply.data "python_file").bind Json.bool?).getD false) := rfl

theorem getChanges_eq (move destination kind : String) :
    getChanges move destination kind = (send "get_changes" [("move", .string move),
      ("destination", .string destination), ("kind", .string kind)]).reading fun reply =>
        (ChangesReply.ofData reply.data).mapError .data :=
  bind_congr fun _ => fromData_eq _

theorem applyChanges_eq (changes : String) :
    applyChanges changes = (send "apply_changes" [("changes", .string changes)]).reading fun _ =>
      .ok () := discard_eq _

theorem importCandidates_eq (name : String) :
    importCandidates name = (send "import_candidates" [("name", .string name)]).reading fun reply =>
      (modulesOfData reply.data).mapError .data :=
  bind_congr fun _ => fromData_eq _

end Link

namespace Exchange

def asks (x : Exchange) (key : String) : Option Json := x.request.field? key

theorem asks_eq (x : Exchange) (key : String) :
    x.asks key = (Fields.get? x.parameters.reverse key).or
      (Fields.get? [("op", .string x.operation), ("id", .int x.id)] key) := by
  have hf := Fields.get?_ofList (("id", .int x.id) :: ("op", .string x.operation) :: x.parameters) key
  rw [List.reverse_cons, List.reverse_cons, List.append_assoc] at hf
  exact hf.trans (Fields.get?_append _ _ key)

/-- A request that says what it is, and has its number. -/
def IsPlain (x : Exchange) : Prop :=
  x.asks "id" = some (.int x.id) ∧ x.asks "op" = some (.string x.operation)

theorem isPlain_of {x : Exchange} (hi : Fields.get? x.parameters.reverse "id" = none)
    (ho : Fields.get? x.parameters.reverse "op" = none) : x.IsPlain := by
  unfold IsPlain
  rw [asks_eq, asks_eq, hi, ho]
  simp [Fields.get?_cons]

end Exchange

end Relocate.Worker
