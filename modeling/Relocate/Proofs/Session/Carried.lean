import Relocate.Proofs.Session.Voice
import Relocate.Proofs.Worker.Talk
import Relocate.Session.Surroundings

namespace Relocate.Session

open Relocate.Action Worker

theorem exec_viaWorker {α : Type} (w : Wording) (a : Link.Act α) (r : Run Link) :
    exec (viaWorker w a) r = ((exec a r).1.mapError (Error.failure w), (exec a r).2) :=
  exec_mapError _ a r

section

variable (h : Host) (root : Utf8.Bytes)

theorem beginMove_eq (place : Place) (index : Option Nat) :
    (ofWorker h root).beginMove place index =
      (viaWorker h.wording (Link.send "create_move" [("path", .string place.path),
        ("offset", Json.optional (fun n => .int n) index)])).reading fun reply =>
          (((MoveReply.ofData reply.data).mapError .data).mapError
            (Error.failure h.wording)).bind planOf := by
  have ha : (ofWorker h root).beginMove place index =
      (viaWorker h.wording (Link.createMove place.path index)).reading planOf := rfl
  rw [ha, viaWorker, Link.createMove_eq, mapError_reading, reading_reading]
  rfl

theorem isSourceFile_eq (place : Place) :
    (ofWorker h root).isSourceFile place =
      (viaWorker h.wording (Link.send "is_python_file" [("path", .string place.path),
        ("kind", .string place.kind.text)])).reading fun reply =>
          .ok (((Fields.get? reply.data "python_file").bind Json.bool?).getD false) := by
  have ha : (ofWorker h root).isSourceFile place =
      viaWorker h.wording (Link.isPythonFile place.path place.kind.text) := rfl
  rw [ha, viaWorker, Link.isPythonFile_eq, mapError_reading]
  rfl

theorem changesFor_eq (plan : MovePlan) (target : Place) :
    (ofWorker h root).changesFor plan target =
      (viaWorker h.wording (Link.send "get_changes" [("move", .string plan.handle),
        ("destination", .string target.path), ("kind", .string target.kind.text)])).reading
          fun reply => (((ChangesReply.ofData reply.data).mapError .data).mapError
            (Error.failure h.wording)).bind fun c => .ok (changesOf c) := by
  have ha : (ofWorker h root).changesFor plan target =
      (viaWorker h.wording (Link.getChanges plan.handle target.path target.kind.text)).reading
        fun c => .ok (changesOf c) := rfl
  rw [ha, viaWorker, Link.getChanges_eq, mapError_reading, reading_reading]
  rfl

theorem applyChanges_eq (changes : String) :
    viaWorker h.wording (Link.applyChanges changes) =
      (viaWorker h.wording (Link.send "apply_changes" [("changes", .string changes)])).reading fun _ =>
        .ok () := by
  rw [viaWorker, Link.applyChanges_eq, mapError_reading]
  rfl

theorem importCandidates_eq (name : String) :
    (ofWorker h root).importCandidates name =
      (viaWorker h.wording (Link.send "import_candidates" [("name", .string name)])).reading fun reply =>
        ((modulesOfData reply.data).mapError .data).mapError (Error.failure h.wording) := by
  have ha : (ofWorker h root).importCandidates name =
      viaWorker h.wording (Link.importCandidates name) := rfl
  rw [ha, viaWorker, Link.importCandidates_eq, mapError_reading]
  rfl

theorem exec_apply (changes : ChangeSet) (r : Run Link) :
    (exec ((ofWorker h root).apply changes) r).1 =
        (exec (viaWorker h.wording (Link.applyChanges changes.handle)) r).1 ∧
      Run.Extends Event.isTold (exec (viaWorker h.wording (Link.applyChanges changes.handle)) r).2
        (exec ((ofWorker h root).apply changes) r).2 := by
  rcases ha : exec (viaWorker h.wording (Link.applyChanges changes.handle)) r with ⟨x, r'⟩
  cases x with
  | ok u =>
    rw [ofWorker, exec_bind_of_ok ha]
    exact ⟨rfl, rfl, [_], rfl, List.forall_mem_singleton.mpr rfl⟩
  | error e =>
    rw [ofWorker, exec_bind_of_error ha]
    exact ⟨rfl, .refl r'⟩

end

variable {w : Wording}

theorem data_failed {α β : Type} {d : Except DataError α} {g : α → Except Failure β} {e : Failure}
    (h : ((d.mapError Error.data).mapError (Error.failure w)).bind g = .error e) :
    ((∃ cause, d = .error cause) ∧ ∃ message, e = .internal message) ∨
      ∃ a, d = .ok a ∧ g a = .error e := by
  cases d with
  | ok a => exact .inr ⟨a, rfl, h⟩
  | error cause =>
    obtain rfl := Except.error.inj h
    exact .inl ⟨⟨cause, rfl⟩, _, rfl⟩

theorem unfit_move {fs : Fields} {e : Failure}
    (h : (((MoveReply.ofData fs).mapError .data).mapError (Error.failure w)).bind planOf = .error e) :
    ¬ Decodes "create_move" fs ∧ ∃ message, e = .internal message := by
  obtain ⟨⟨cause, hm⟩, he⟩ | ⟨m, hm, h⟩ := data_failed h
  · refine ⟨fun hd => ?_, he⟩
    obtain ⟨m, plan, ho, -⟩ := hd.move rfl
    rw [hm] at ho
    cases ho
  · refine ⟨fun hd => ?_, ?_⟩
    · obtain ⟨m', plan, ho, hp⟩ := hd.move rfl
      obtain rfl := Except.ok.inj (hm.symm.trans ho)
      rw [h] at hp
      cases hp
    · unfold planOf at h
      split at h
      · cases h
      · exact ⟨_, (Except.error.inj h).symm⟩

theorem unfit_changes {fs : Fields} {e : Failure}
    (h : (((ChangesReply.ofData fs).mapError .data).mapError (Error.failure w)).bind
      (fun c => .ok (changesOf c)) = .error e) :
    ¬ Decodes "get_changes" fs ∧ ∃ message, e = .internal message := by
  obtain ⟨⟨cause, hc⟩, he⟩ | ⟨c, -, h⟩ := data_failed h
  · refine ⟨fun hd => ?_, he⟩
    obtain ⟨c, ho⟩ := hd.changes rfl
    rw [hc] at ho
    cases ho
  · cases h

theorem unfit_modules {fs : Fields} {e : Failure}
    (h : ((modulesOfData fs).mapError .data).mapError (Error.failure w) = .error e) :
    ¬ Decodes "import_candidates" fs ∧ ∃ message, e = .internal message := by
  cases hm : modulesOfData fs with
  | ok names =>
    rw [hm] at h
    cases h
  | error cause =>
    rw [hm] at h
    refine ⟨fun hd => ?_, _, (Except.error.inj h).symm⟩
    obtain ⟨names, ho⟩ := hd.modules rfl
    rw [hm] at ho
    cases ho

/-- A deed that comes down to one request, and to what is read from its reply. -/
theorem voiced_send {α : Type} {a : Act α} {d : Except Failure α → Deed} {operation : String}
    {fs : Fields} {g : Reply → Except Failure α}
    (ha : a = (viaWorker w (Link.send operation fs)).reading g)
    (ho : ∀ x, operation? (d x) = some operation) (hp : ∀ x, parameters (d x) = fs)
    (hf : ∀ e, (d (.error e)).failure? = some e) (hk : ∀ y, (d (.ok y)).failure? = none)
    (hg : ∀ reply, Grants reply (d (g reply)))
    (hn : ∀ reply e, g reply = .error e →
      ¬ Decodes operation reply.data ∧ ∃ message, e = .internal message) (r : Run Link) :
    ∃ xs, Talk r (exec a r).2 xs ∧ Voiced [d (exec a r).1] xs ∧
      (r.engine.isRunning = true → AllSaid [d (exec a r).1] xs) := by
  rw [ha, exec_reading, exec_viaWorker]
  -- A worker that is gone is asked for nothing, and the deed fails.
  cases hr : r.engine.isRunning with
  | false =>
    rw [Link.exec_send_idle operation fs (Link.pipes_of_idle hr)]
    refine ⟨[], .refl r, .silent (.inr ?_) .nil, nofun⟩
    exact fun hn => Option.some_ne_none _ ((hf _).symm.trans hn)
  | true =>
    have hx := Link.exchange_leads operation fs hr
    have hv : Voices (Link.exchange operation fs r)
        (d (((exec (Link.send operation fs) r).1.mapError (Error.failure w)).bind g)) := by
      refine ⟨ho _, (hp _).symm, fun hd => ?_, fun e he => ?_⟩
      · cases hs : (exec (Link.send operation fs) r).1 with
        | ok reply => exact ⟨reply, hs, hx.accepted hs, hg reply⟩
        | error err =>
          rw [hs] at hd
          have hd : (d (.error (err.failure w))).failure? = none := hd
          rw [hf] at hd
          cases hd
      · cases hs : (exec (Link.send operation fs) r).1 with
        | ok reply =>
          rw [hs] at he
          have he : (d (g reply)).failure? = some e := he
          cases hy : g reply with
          | ok y =>
            rw [hy, hk] at he
            cases he
          | error e' =>
            rw [hy, hf] at he
            obtain rfl := Option.some.inj he
            obtain ⟨hd, message, rfl⟩ := hn reply e' hy
            exact .unfit hs hd
        | error err =>
          rw [hs] at he
          have he : (d (.error (err.failure w))).failure? = some e := he
          rw [hf] at he
          obtain rfl := Option.some.inj he
          exact .ungranted hs w
    refine ⟨[_], .one hx hr, .said hv .nil, fun _ d' hd _ => ?_⟩
    rw [List.mem_singleton.mp hd]
    exact ⟨_, List.mem_cons_self, hv⟩

theorem put_told : Action.Extends Event.isTold (Prompt.put : Action (Run Link) Prompt.Error Unit) := by
  refine .bind .refl fun r => ?_
  match r.questions with
  | none => exact .pure _
  | some (0, e) => exact .throw _
  | some (n + 1, e) => exact fun r => ⟨rfl, [], by simp, List.forall_mem_nil _⟩

theorem ask_told (question : String) :
    Action.Extends Event.isTold (Prompt.ask question : Action (Run Link) Prompt.Error String) := by
  refine .bind put_told fun _ => .bind (.record rfl) fun _ => .bind .refl fun r => ?_
  cases r.input with
  | nil => exact .bind (.record rfl) fun _ => .throw _
  | cons line rest =>
    exact .bind (fun r => ⟨rfl, [], by simp, List.forall_mem_nil _⟩) fun _ => .liftM _

theorem write_told (text : String) :
    Action.Extends Event.isTold (Report.write text : Action (Run Link) SystemError Unit) := by
  unfold Report.write
  by_cases ht : text = ""
  · rw [if_pos ht]
    exact .pure _
  · rw [if_neg ht]
    refine .bind .refl fun r => ?_
    cases r.room with
    | none =>
      exact .bind (fun r => ⟨rfl, [], by simp, List.forall_mem_nil _⟩) fun _ => .record rfl
    | some n =>
      cases n with
      | zero => exact .throw _
      | succ n =>
        exact .bind (fun r => ⟨rfl, [], by simp, List.forall_mem_nil _⟩) fun _ => .record rfl

theorem carried_voiced {h : Host} {root : Utf8.Bytes} {d : Deed} {r r' : Run Link}
    (hd : d.Carried (.ofRun h (ofWorker h root)) r r') : ∃ xs, Talk r r' xs ∧ Voiced [d] xs ∧
      (r.engine.isRunning = true → AllSaid [d] xs) := by
  cases d with
  | begin place index res =>
    have hv := voiced_send (d := .begin place index) (beginMove_eq h root place index)
      (fun _ => rfl) (fun _ => rfl) (fun _ => rfl) (fun _ => rfl) (fun reply plan hp => by
        obtain ⟨m, hm, hp⟩ := ok_of_bind hp
        exact ⟨m, ok_of_mapError (ok_of_mapError hm), hp⟩) (fun _ _ => unfit_move) r
    rw [show exec ((ofWorker h root).beginMove place index) r = (res, r') from hd] at hv
    exact hv
  | confirm place res =>
    have hv := voiced_send (d := .confirm place) (isSourceFile_eq h root place)
      (fun _ => rfl) (fun _ => rfl) (fun _ => rfl) (fun _ => rfl)
      (fun reply b hb => (Except.ok.inj hb).symm) nofun r
    rw [show exec ((ofWorker h root).isSourceFile place) r = (res, r') from hd] at hv
    exact hv
  | compute plan target res =>
    have hv := voiced_send (d := .compute plan target) (changesFor_eq h root plan target)
      (fun _ => rfl) (fun _ => rfl) (fun _ => rfl) (fun _ => rfl) (fun reply changes hc => by
        obtain ⟨c, hc, hs⟩ := ok_of_bind hc
        exact ⟨c, ok_of_mapError (ok_of_mapError hc), Except.ok.inj hs⟩)
      (fun _ _ => unfit_changes) r
    rw [show exec ((ofWorker h root).changesFor plan target) r = (res, r') from hd] at hv
    exact hv
  | apply changes res =>
    obtain ⟨hr, ht⟩ := exec_apply h root changes r
    obtain ⟨xs, hx, hv⟩ := voiced_send (d := .apply changes) (applyChanges_eq h changes.handle)
      (fun _ => rfl) (fun _ => rfl) (fun _ => rfl) (fun _ => rfl) (fun _ => trivial) nofun r
    rw [← hr] at hv
    have hl := hx.before_told ht
    rw [show exec ((ofWorker h root).apply changes) r = (res, r') from hd] at hl hv
    exact ⟨xs, hl, hv⟩
  | list name res =>
    have hv := voiced_send (d := .list name) (importCandidates_eq h root name)
      (fun _ => rfl) (fun _ => rfl) (fun _ => rfl) (fun _ => rfl)
      (fun reply names hn => ok_of_mapError (ok_of_mapError hn)) (fun _ _ => unfit_modules) r
    rw [show exec ((ofWorker h root).importCandidates name) r = (res, r') from hd] at hv
    exact hv
  | ask question res =>
    have ht := ask_told question r
    rw [show exec (Prompt.ask question) r = (res, r') from hd] at ht
    exact ⟨[], .told ht, .silent (.inl rfl) .nil, fun _ => .of_none rfl []⟩
  | write text res =>
    have ht := write_told text r
    rw [show exec (Report.write text) r = (res, r') from hd] at ht
    exact ⟨[], .told ht, .silent (.inl rfl) .nil, fun _ => .of_none rfl []⟩
  | log entry res =>
    have ht : Action.Extends Event.isTold (Run.log entry : Act Unit) := .record rfl
    have hr := ht r
    rw [show exec (Run.log entry) r = (res, r') from hd] at hr
    exact ⟨[], .told hr, .silent (.inl rfl) .nil, fun _ => .of_none rfl []⟩

/-- What a command does with a worker, and what is said to the worker on the way. If the command
stops at the first failure, a worker that runs is told all of it. -/
theorem trace_voiced {h : Host} {root : Utf8.Bytes} {ds : List Deed} {r r' : Run Link}
    (ht : Trace (.ofRun h (ofWorker h root)) r ds r') : ∃ xs, Talk r r' xs ∧ Voiced ds xs ∧
      (r.engine.isRunning = true → Stops ds → AllSaid ds xs) := by
  induction ds generalizing r with
  | nil =>
    obtain rfl : r = r' := ht
    exact ⟨[], .refl r, .nil, fun _ _ => List.forall_mem_nil _⟩
  | cons d ds ih =>
    obtain ⟨r₁, hd, ht⟩ := ht
    obtain ⟨xs, hx, hv, hs⟩ := carried_voiced hd
    obtain ⟨ys, hy, hw, ha⟩ := ih ht
    refine ⟨xs ++ ys, hx.trans hy, hv.append hw, fun hr hst => ?_⟩
    cases ds with
    | nil =>
      have hn : AllSaid [] ys := List.forall_mem_nil _
      exact (hs hr).append hn
    | cons d' ds =>
      -- There is more to say only if the worker was not lost over this.
      have hc : ∀ d'' ∈ [d], d''.failure? = none :=
        List.forall_mem_singleton.mpr (hst.calm (List.cons_ne_nil _ _))
      exact (hs hr).append (ha (hx.running hr (hv.spared hc)) hst.tail)

end Relocate.Session
