import Relocate.Proofs.Interpreter.Selection
import Relocate.Proofs.Prompt
import Relocate.Proofs.Session.Opening

namespace Relocate

open Worker

def reported (journal : List Event) : List String :=
  journal.filterMap fun
    | .reported text => some text
    | _ => none

theorem reported_append (es es' : List Event) : reported (es ++ es') = reported es ++ reported es' :=
  List.filterMap_append

def Event.isHidden : Event → Bool
  | .reported _ | .prompted _ => false
  | _ => true

theorem reported_hidden {es : List Event} (h : ∀ e ∈ es, e.isHidden = true) : reported es = [] := by
  refine List.filterMap_eq_nil_iff.mpr fun e he => ?_
  have hh := h e he
  cases e <;> first | rfl | cases hh

namespace Action

/-- Whatever the run, an action shows nothing to the user. -/
def Silent {σ ε α : Type} (a : Action (Run σ) ε α) : Prop :=
  ∀ r, ∃ es, (exec a r).2.journal = r.journal ++ es ∧ ∀ e ∈ es, e.isHidden = true

namespace Silent

variable {σ ε δ α β : Type}

theorem still {a : Action (Run σ) ε α} (h : ∀ r, (exec a r).2.journal = r.journal) : Silent a :=
  fun r => ⟨[], by rw [h r, List.append_nil], List.forall_mem_nil _⟩

theorem pure (x : α) : Silent (pure x : Action (Run σ) ε α) := still fun _ => rfl

theorem throw (e : ε) : Silent (throw e : Action (Run σ) ε α) := still fun _ => rfl

theorem liftM (x : Except ε α) : Silent (liftM x : Action (Run σ) ε α) := still fun _ => rfl

theorem get : Silent (get : Action (Run σ) ε (Run σ)) := still fun _ => rfl

theorem record {e : Event} (h : e.isHidden = true) :
    Silent (Run.record e : Action (Run σ) ε Unit) :=
  fun _ => ⟨[e], rfl, List.forall_mem_singleton.mpr h⟩

theorem log (e : Log.Entry) : Silent (Run.log e : Action (Run σ) ε Unit) := record rfl

theorem bind {a : Action (Run σ) ε α} {f : α → Action (Run σ) ε β} (ha : Silent a)
    (hf : ∀ x, Silent (f x)) : Silent (a >>= f) := by
  intro r
  obtain ⟨es, hj, he⟩ := ha r
  rcases hx : exec a r with ⟨x, r'⟩
  rw [hx] at hj
  cases x with
  | ok x =>
    obtain ⟨es', hj', he'⟩ := hf x r'
    rw [exec_bind_of_ok hx]
    refine ⟨es ++ es', by rw [hj', hj, List.append_assoc], fun e hm => ?_⟩
    exact (List.mem_append.mp hm).elim (he e) (he' e)
  | error e =>
    rw [exec_bind_of_error hx]
    exact ⟨es, hj, he⟩

theorem mapError {a : Action (Run σ) ε α} (h : Silent a) (f : ε → δ) : Silent (a.mapError f) := by
  intro r
  rw [exec_mapError]
  exact h r

theorem attempt {a : Action (Run σ) ε α} (h : Silent a) :
    Silent (a.attempt : Action (Run σ) δ (Except ε α)) := fun r => h r

theorem reading {a : Action (Run σ) ε α} (h : Silent a) (g : α → Except ε β) :
    Silent (a.reading g) := bind h fun _ => liftM _

theorem of_extends {a : Action (Run σ) ε α} (h : Action.Extends Event.isHidden a) : Silent a :=
  fun r => (h r).journal

theorem reported {a : Action (Run σ) ε α} (h : Silent a) (r : Run σ) :
    reported (exec a r).2.journal = reported r.journal := by
  obtain ⟨es, hj, he⟩ := h r
  rw [hj, reported_append, reported_hidden he, List.append_nil]

end Silent

end Action

open Relocate.Action

namespace Worker.Link

theorem change_silent (f : Link → Link) : Silent (change f) := .still fun _ => rfl

theorem awaitGreeting_silent (fault : Option SystemError) (lines : List Line) :
    Silent (awaitGreeting fault lines) := by
  induction lines with
  | nil => exact .bind (change_silent _) fun _ => .throw _
  | cons line rest ih =>
    refine .bind (change_silent _) fun _ => ?_
    cases line.text? with
    | none => exact .bind (change_silent _) fun _ => .throw _
    | some text =>
      dsimp only
      split
      · exact ih
      · cases (Greeting.ofText? (Text.trim text.toList)).filter fun g => g.status = "ready" with
        | some greeting => exact .bind (.log _) fun _ => change_silent _
        | none =>
          cases (Reply.ofText? (Text.trim text.toList)).filter Reply.isError with
          | some reply => exact .bind (change_silent _) fun _ => .throw _
          | none => exact .bind (.log _) fun _ => ih

theorem send_silent (operation : String) (parameters : Fields) :
    Silent (send operation parameters) := by
  intro r
  cases hr : r.engine.isRunning with
  | false =>
    rw [exec_send_idle operation parameters (pipes_of_idle hr)]
    exact ⟨[], (List.append_nil _).symm, List.forall_mem_nil _⟩
  | true =>
    obtain ⟨before, after, hj⟩ := (exchange_leads operation parameters hr).journal
    have hl {entries : List Log.Entry} : ∀ e ∈ entries.map Event.logged, e.isHidden = true := by
      simp [Event.isHidden]
    have hs {bytes : Utf8.Bytes} :
        ∀ e ∈ (if bytes = [] then [] else [Event.sent bytes]), e.isHidden = true := by
      split <;> simp [Event.isHidden]
    refine ⟨_, by rw [hj, List.append_assoc, List.append_assoc], fun e he => ?_⟩
    obtain he | he := List.mem_append.mp he
    · exact hl e he
    · exact (List.mem_append.mp he).elim (hs e) (hl e)

theorem start_silent (h : Host) (path : String) : Silent (start h path) := by
  have hl : Silent (h.launch path .worker : Action (Run Link) SystemError Interpreter) := by
    rw [Host.launch]
    cases h.start path with
    | ok program => exact .bind (.record rfl) fun _ => .pure _
    | error e => exact .bind (.record rfl) fun _ => .throw _
  have hs : Silent ((h.launch path .worker).mapError (fun e => Error.notStarted e.message) >>=
      fun i => Run.log ⟨.worker, .info, "spawned rope worker", [("pid", "?"), ("python", path)]⟩ >>=
        fun _ => change
            (fun _ => ⟨some (.spawned path), some i.worker.toInlet, some i.worker.toOutlet, 1, none,
              none⟩) >>=
          fun _ => awaitGreeting i.worker.fault i.worker.unread) :=
    .bind (.mapError hl _) fun i => .bind (.log _) fun _ => .bind (change_silent _) fun _ =>
      awaitGreeting_silent _ _
  have hk : Silent (h.script.mapError Error.io : Act Unit) := .liftM _
  unfold start
  split
  · exact .bind (.throw _) fun _ => .bind hk fun _ => hs
  · exact .bind hk fun _ => hs

theorem openProject_silent (root : String) (folder : Option String) :
    Silent (openProject root folder) := by
  refine .bind (send_silent _ _) fun reply => ?_
  cases (Fields.get? reply.data "root").bind Json.string? with
  | some s => exact .pure s
  | none => exact .throw _

theorem shutdown_silent : Silent shutdown := by
  refine .bind .get fun r => ?_
  split
  · exact .bind (.attempt (send_silent _ _)) fun _ => .bind (change_silent _) fun _ => .log _
  · exact .pure _

end Worker.Link

namespace Session

theorem arrive_silent (h : Host) (c : Interpreter.Choice) (p : Project) : Silent (arrive h c p) := by
  have hd : Silent (Interpreter.discover h c : Action (Run Link) Interpreter.Error _) :=
    .of_extends (Interpreter.discover_extends (fun _ => rfl) (fun _ _ _ _ => rfl) h c)
  refine .bind (.mapError hd _) fun found => .bind (.liftM _) fun root => ?_
  exact .bind (.mapError (Link.start_silent h _) _) fun _ => .pure _

theorem introduce_silent (h : Host) (folder : Option String) (a : Interpreter.Found × Utf8.Bytes) :
    Silent (introduce h folder a) := by
  refine .bind (.attempt (.mapError (Link.openProject_silent _ _) _)) fun result => ?_
  cases result with
  | error e => exact .bind (.mapError Link.shutdown_silent _) fun _ => .throw e
  | ok reported => exact .bind .get fun r => .bind (.log _) fun _ => .bind (.log _) fun _ => .pure _

theorem start_silent (h : Host) (c : Interpreter.Choice) (p : Project) : Silent (start h c p) := by
  rw [start_eq]
  exact .bind (arrive_silent h c p) fun a => introduce_silent h _ a

theorem close_silent (h : Host) : Silent (close h) := .mapError Link.shutdown_silent _

theorem viaWorker_silent (w : Wording) (operation : String) (parameters : Fields) :
    Silent (viaWorker w (Link.send operation parameters)) :=
  .mapError (Link.send_silent operation parameters) _

section

variable (h : Host) (root : Utf8.Bytes)

theorem beginMove_silent (place : Place) (index : Option Nat) :
    Silent ((ofWorker h root).beginMove place index) := by
  rw [beginMove_eq]
  exact .reading (viaWorker_silent _ _ _) _

theorem isSourceFile_silent (place : Place) : Silent ((ofWorker h root).isSourceFile place) := by
  rw [isSourceFile_eq]
  exact .reading (viaWorker_silent _ _ _) _

theorem changesFor_silent (plan : MovePlan) (target : Place) :
    Silent ((ofWorker h root).changesFor plan target) := by
  rw [changesFor_eq]
  exact .reading (viaWorker_silent _ _ _) _

theorem apply_silent (changes : ChangeSet) : Silent ((ofWorker h root).apply changes) := by
  have ha : Silent (viaWorker h.wording (Link.applyChanges changes.handle)) := by
    rw [applyChanges_eq]
    exact .reading (viaWorker_silent _ _ _) _
  exact .bind ha fun _ => .log _

theorem importCandidates_silent (name : String) :
    Silent ((ofWorker h root).importCandidates name) := by
  rw [importCandidates_eq]
  exact .reading (viaWorker_silent _ _ _) _

end

def shownBy : Deed → List Event
  | .ask _ (.error (.unasked _)) => []
  | .ask question (.error .endOfInput) => [.prompted (question ++ ": "), .prompted "\n"]
  | .ask question _ => [.prompted (question ++ ": ")]
  | .write text (.ok _) => if text = "" then [] else [.reported text]
  | _ => []

theorem ask_shown {question : String} {res : Except Prompt.Error String} {r r' : Run Link}
    (hd : exec (Prompt.ask question) r = (res, r')) :
    r'.journal = r.journal ++ shownBy (.ask question res) := by
  by_cases hq : ∃ e, r.questions = some (0, e)
  · obtain ⟨e, hq⟩ := hq
    rw [Prompt.exec_ask_unasked question hq] at hd
    obtain ⟨rfl, rfl⟩ := Prod.mk.inj hd
    exact (List.append_nil _).symm
  · rw [Prompt.exec_ask question fun e he => hq ⟨e, he⟩] at hd
    obtain ⟨rfl, rfl⟩ := Prod.mk.inj hd
    refine congrArg (r.journal ++ ·) ?_
    cases r.input with
    | nil => rfl
    | cons line rest =>
      -- The input is not at its end, whatever the line is worth as an answer.
      simp only [List.head?_cons, Prompt.outcome, Prompt.answer]
      split
      · rfl
      · split <;> rfl

theorem write_shown {text : String} {res : Except SystemError Unit} {r r' : Run Link}
    (hd : exec (Report.write text) r = (res, r')) :
    r'.journal = r.journal ++ shownBy (.write text res) := by
  unfold Report.write at hd
  split at hd
  · rename_i ht
    obtain ⟨rfl, rfl⟩ := Prod.mk.inj hd
    simp [shownBy, ht]
  · rename_i ht
    have hmore : shownBy (.write text (.ok ())) = [.reported text] := if_neg ht
    rw [exec_bind_of_ok (exec_get r)] at hd
    cases hm : r.room with
    | none =>
      simp only [hm] at hd
      obtain ⟨rfl, rfl⟩ := Prod.mk.inj hd
      exact congrArg _ hmore.symm
    | some n =>
      cases n with
      | zero =>
        simp only [hm] at hd
        obtain ⟨rfl, rfl⟩ := Prod.mk.inj hd
        exact (List.append_nil _).symm
      | succ n =>
        simp only [hm] at hd
        obtain ⟨rfl, rfl⟩ := Prod.mk.inj hd
        exact congrArg _ hmore.symm

/-- What a deed adds to the journal is hidden from the user but for what it shows. -/
theorem carried_shown {h : Host} {root : Utf8.Bytes} {d : Deed} {r r' : Run Link}
    (hd : d.Carried (.ofRun h (ofWorker h root)) r r') :
    ∃ es, r'.journal = r.journal ++ es ++ shownBy d ∧ ∀ e ∈ es, e.isHidden = true := by
  have hs {α : Type} {a : Act α} {res : Except Failure α} (ha : Silent a)
      (hx : exec a r = (res, r')) : ∃ es, r'.journal = r.journal ++ es ++ [] ∧
        ∀ e ∈ es, e.isHidden = true := by
    have hr := ha r
    rw [hx] at hr
    simpa only [List.append_nil] using hr
  have hn {es : List Event} (hj : r'.journal = r.journal ++ es) : ∃ es', r'.journal =
      r.journal ++ es' ++ es ∧ ∀ e ∈ es', e.isHidden = true :=
    ⟨[], by rw [List.append_nil, hj], List.forall_mem_nil _⟩
  cases d with
  | begin place index res => exact hs (beginMove_silent h root place index) hd
  | confirm place res => exact hs (isSourceFile_silent h root place) hd
  | compute plan target res => exact hs (changesFor_silent h root plan target) hd
  | apply changes res => exact hs (apply_silent h root changes) hd
  | list name res => exact hs (importCandidates_silent h root name) hd
  | ask question res => exact hn (ask_shown hd)
  | write text res => exact hn (write_shown hd)
  | log entry res => exact hs (.log entry) hd

end Session

end Relocate
