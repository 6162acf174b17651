import Relocate.Proofs.CommandLine.Conversation
import Relocate.Proofs.Worker.Twins

namespace Relocate

open Relocate.Action Worker

namespace Session

theorem viaWorker_steady {α : Type} {w : Wording} {a : Link.Act α} (h : Steady a) :
    Steady (viaWorker w a) :=
  .mapError h _

theorem openProject_steady (w : Wording) (root : String) (folder : Option String) :
    Steady (viaWorker w (Link.openProject root folder)) := by
  refine viaWorker_steady ?_
  rw [Link.openProject_eq]
  exact .reading (Link.send_steady _ _) _

section

variable (h : Host) (root : Utf8.Bytes)

theorem beginMove_steady (place : Place) (index : Option Nat) :
    Steady ((ofWorker h root).beginMove place index) := by
  rw [beginMove_eq]
  exact .reading (viaWorker_steady (Link.send_steady _ _)) _

theorem isSourceFile_steady (place : Place) : Steady ((ofWorker h root).isSourceFile place) := by
  rw [isSourceFile_eq]
  exact .reading (viaWorker_steady (Link.send_steady _ _)) _

theorem changesFor_steady (plan : MovePlan) (target : Place) :
    Steady ((ofWorker h root).changesFor plan target) := by
  rw [changesFor_eq]
  exact .reading (viaWorker_steady (Link.send_steady _ _)) _

theorem apply_steady (changes : ChangeSet) : Steady ((ofWorker h root).apply changes) := by
  have ha : Steady (viaWorker h.wording (Link.applyChanges changes.handle)) := by
    rw [applyChanges_eq]
    exact .reading (viaWorker_steady (Link.send_steady _ _)) _
  exact .bind ha fun _ => .log _

theorem importCandidates_steady (name : String) :
    Steady ((ofWorker h root).importCandidates name) := by
  rw [importCandidates_eq]
  exact .reading (viaWorker_steady (Link.send_steady _ _)) _

end

theorem ask_steady (question : String) :
    Steady (Prompt.ask question : Action (Run Link) Prompt.Error String) := by
  refine .of_apart fun r k => ?_
  obtain ⟨journal, input, room, questions, engine⟩ := r
  match questions, input with
  | some (0, _), _ => rfl
  | none, [] | none, _ :: _ | some (_ + 1, _), [] | some (_ + 1, _), _ :: _ => rfl

theorem write_steady (text : String) :
    Steady (Report.write text : Action (Run Link) SystemError Unit) := by
  refine .of_apart fun r k => ?_
  obtain ⟨journal, input, room, questions, engine⟩ := r
  unfold Report.write
  split
  · rfl
  · cases room with
    | none => rfl
    | some n => cases n <;> rfl

end Session

namespace Command

open Session

variable (h : Host) (root : Utf8.Bytes)

theorem report_steady (pieces : List String) :
    Steady (Surroundings.report (.ofRun h (ofWorker h root)) pieces) :=
  .forM (fun text => .mapError (write_steady text) _) pieces

theorem Rules.target_steady (k : Rules) : Steady (k.target (.ofRun h (ofWorker h root))) := by
  have hd : Steady (Surroundings.destination (.ofRun h (ofWorker h root)) k.given k.question) := by
    cases k.given with
    | some path => exact .pure path
    | none => exact .mapError (ask_steady _) _
  have hc (place : Place) : Steady (k.confirm (.ofRun h (ofWorker h root)) place) := by
    unfold Rules.confirm
    cases k.doubt with
    | none => exact .pure ()
    | some e =>
      refine .bind (isSourceFile_steady h root place) fun b => ?_
      cases b with
      | true => exact .pure ()
      | false => exact .throw e
  exact .bind hd fun path => .bind (.liftM _) fun place => .bind (hc place) fun _ => .pure place

theorem Rules.run_steady (k : Rules) : Steady (k.run (.ofRun h (ofWorker h root))) := by
  refine .bind (.forM (fun e => .log e) _) fun _ => ?_
  refine .bind (.liftM _) fun source => ?_
  refine .bind (beginMove_steady h root source.1 source.2) fun plan => ?_
  refine .bind (.liftM _) fun _ => ?_
  refine .bind (report_steady h root _) fun _ => ?_
  refine .bind (k.target_steady h root) fun place => ?_
  refine .bind (.forM (fun e => .log e) _) fun _ => ?_
  refine .bind (changesFor_steady h root plan place) fun changes => ?_
  refine .bind (.log _) fun _ => ?_
  exact .bind (apply_steady h root changes) fun _ => report_steady h root _

theorem ShowImports.run_steady (c : ShowImports) :
    Steady (c.run (.ofRun h (ofWorker h root))) := by
  rw [run_eq]
  refine .bind (importCandidates_steady h root c.name) fun candidates => ?_
  refine .bind (.forM (fun m => .log _) _) fun _ => .bind (.log _) fun _ => ?_
  have hr : Steady ((Imports.kept c.vendorPrefixes candidates).forM fun m =>
      Surroundings.report (.ofRun h (ofWorker h root)) [Imports.statement m c.name, "\n"]) :=
    .forM (fun m => report_steady h root _) _
  dsimp only
  split
  · exact .bind (.throw _) fun _ => hr
  · exact hr

end Command

namespace CommandLine

theorem dispatch_steady (h : Host) (root : Utf8.Bytes) (settings : Settings) (q : Request) :
    Steady (dispatch (.ofRun h (Session.ofWorker h root)) settings q) := by
  cases q with
  | move m =>
    rw [dispatch, m.run_eq]
    exact Command.Rules.run_steady h root _
  | moveModule m =>
    rw [dispatch, m.run_eq]
    exact Command.Rules.run_steady h root _
  | showImports name => exact Command.ShowImports.run_steady h root _

end CommandLine

end Relocate
