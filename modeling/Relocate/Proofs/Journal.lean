import Relocate.Host
import Relocate.Proofs.Execution

namespace Relocate

/-- A later state of a run in which only the log has grown and the engine may have changed. -/
structure Run.Logged {σ : Type} (r r' : Run σ) : Prop where
  journal : ∃ entries : List Log.Entry, r'.journal = r.journal ++ entries.map .logged
  input : r'.input = r.input
  room : r'.room = r.room

namespace Run.Logged

variable {σ : Type} {r r' r'' : Run σ}

theorem refl (r : Run σ) : Run.Logged r r := ⟨⟨[], by simp⟩, rfl, rfl⟩

theorem trans (h : Run.Logged r r') (h' : Run.Logged r' r'') : Run.Logged r r'' := by
  obtain ⟨es, hj⟩ := h.journal
  obtain ⟨es', hj'⟩ := h'.journal
  exact ⟨⟨es ++ es', by simp [hj, hj']⟩, h'.input.trans h.input, h'.room.trans h.room⟩

theorem entry (r : Run σ) (e : Log.Entry) :
    Run.Logged r { r with journal := r.journal ++ [.logged e] } :=
  ⟨⟨[e], rfl⟩, rfl, rfl⟩

theorem engine (r : Run σ) (k : σ) : Run.Logged r { r with engine := k } :=
  ⟨⟨[], by simp⟩, rfl, rfl⟩

theorem entries (r : Run σ) (es : List Log.Entry) (k : σ) :
    Run.Logged r { r with journal := r.journal ++ es.map .logged, engine := k } :=
  ⟨⟨es, rfl⟩, rfl, rfl⟩

end Run.Logged

theorem Action.exec_log {σ ε : Type} (e : Log.Entry) (r : Run σ) :
    Action.exec (Run.log e : Action (Run σ) ε Unit) r =
      (.ok (), { r with journal := r.journal ++ [.logged e] }) := rfl

def Host.launching (h : Host) (path : String) (task : Task) : Event :=
  .launched path task ((h.start path).toOption.map fun program => (program.file, program.task? task))

theorem Host.exec_launch {σ : Type} (h : Host) (path : String) (task : Task) (r : Run σ) :
    Action.exec (h.launch path task) r =
      ((h.start path).map fun program => program.interpreter.doing (program.task? task),
        { r with journal := r.journal ++ [h.launching path task] }) := by
  unfold Host.launch Host.launching
  cases h.start path <;> rfl

def Event.isLaunch : Event → Bool
  | .launched .. => true
  | _ => false

def Event.startsWorker : Event → Bool
  | .launched _ .worker _ => true
  | _ => false

def Event.isTold : Event → Bool
  | .launched .. | .sent _ => false
  | _ => true

/-- Whether no worker is concerned. -/
def Event.sparesWorker : Event → Bool
  | .launched _ .worker _ | .sent _ => false
  | _ => true

theorem Event.spares_of_told {e : Event} (h : e.isTold = true) : e.sparesWorker = true := by
  cases e <;> first | rfl | cases h

theorem Event.no_start_of_spares {e : Event} (h : e.sparesWorker = true) :
    e.startsWorker = false := by
  cases e with
  | launched program task result => cases task <;> first | rfl | cases h
  | _ => rfl

theorem Event.no_start_of_no_launch {e : Event} (h : e.isLaunch = false) :
    e.startsWorker = false := by
  cases e <;> first | rfl | cases h

theorem Event.no_launch_of_told {e : Event} (h : e.isTold = true) : e.isLaunch = false := by
  cases e <;> first | rfl | cases h

theorem filter_startsWorker {es : List Event} (h : ∀ e ∈ es, e.startsWorker = false) :
    es.filter Event.startsWorker = [] :=
  List.filter_eq_nil_iff.mpr fun e he => by simp [h e he]

theorem startsWorker_logged (entries : List Log.Entry) :
    (entries.map Event.logged).filter Event.startsWorker = [] := by
  refine filter_startsWorker fun e he => ?_
  obtain ⟨entry, -, rfl⟩ := List.mem_map.mp he
  rfl

def sentBytes (journal : List Event) : Utf8.Bytes :=
  journal.flatMap fun
    | .sent bytes => bytes
    | _ => []

theorem sentBytes_append (es es' : List Event) :
    sentBytes (es ++ es') = sentBytes es ++ sentBytes es' := List.flatMap_append

theorem sentBytes_logged (entries : List Log.Entry) : sentBytes (entries.map .logged) = [] := by
  induction entries with
  | nil => rfl
  | cons e entries ih => exact ih

theorem sentBytes_spared {es : List Event} (h : ∀ e ∈ es, e.sparesWorker = true) :
    sentBytes es = [] := by
  refine List.flatMap_eq_nil_iff.mpr fun e he => ?_
  have hs := h e he
  cases e <;> first | rfl | cases hs

theorem Run.Logged.sentBytes {σ : Type} {r r' : Run σ} (h : r.Logged r') :
    sentBytes r'.journal = sentBytes r.journal := by
  obtain ⟨entries, hj⟩ := h.journal
  rw [hj, sentBytes_append, sentBytes_logged, List.append_nil]

def workers (journal : List Event) : List String :=
  journal.filterMap fun
    | .launched program .worker (some _) => some program
    | _ => none

theorem workers_append (es es' : List Event) : workers (es ++ es') = workers es ++ workers es' :=
  List.filterMap_append

theorem workers_none {es : List Event} (h : ∀ e ∈ es, e.startsWorker = false) : workers es = [] := by
  refine List.filterMap_eq_nil_iff.mpr fun e he => ?_
  have hs := h e he
  cases e with
  | launched program task result => cases task <;> first | rfl | cases hs
  | _ => rfl

theorem Run.Logged.workers {σ : Type} {r r' : Run σ} (h : r.Logged r') :
    workers r'.journal = workers r.journal := by
  obtain ⟨entries, hj⟩ := h.journal
  have hn : Relocate.workers (entries.map .logged) = [] :=
    workers_none fun e he => by
      obtain ⟨entry, -, rfl⟩ := List.mem_map.mp he
      rfl
  rw [hj, workers_append, hn, List.append_nil]

/-- A later state of a run to which only events of one kind were added. The engine stays. -/
structure Run.Extends {σ : Type} (kind : Event → Bool) (r r' : Run σ) : Prop where
  engine : r'.engine = r.engine
  journal : ∃ es, r'.journal = r.journal ++ es ∧ ∀ e ∈ es, kind e = true

namespace Run.Extends

variable {σ : Type} {kind : Event → Bool} {r r' r'' : Run σ}

theorem refl (r : Run σ) : Run.Extends kind r r := ⟨rfl, [], by simp, List.forall_mem_nil _⟩

theorem trans (h : Run.Extends kind r r') (h' : Run.Extends kind r' r'') :
    Run.Extends kind r r'' := by
  obtain ⟨es, hj, he⟩ := h.journal
  obtain ⟨es', hj', he'⟩ := h'.journal
  refine ⟨h'.engine.trans h.engine, es ++ es', by rw [hj', hj, List.append_assoc], fun e hm => ?_⟩
  exact (List.mem_append.mp hm).elim (he e) (he' e)

theorem forall_journal (h : Run.Extends kind r r') (hj : ∀ e ∈ r.journal, kind e = true) :
    ∀ e ∈ r'.journal, kind e = true := by
  obtain ⟨es, hj', he⟩ := h.journal
  rw [hj']
  exact fun e hm => (List.mem_append.mp hm).elim (hj e) (he e)

end Run.Extends

namespace Action

def Extends {σ ε α : Type} (kind : Event → Bool) (a : Action (Run σ) ε α) : Prop :=
  ∀ r, Run.Extends kind r (exec a r).2

namespace Extends

variable {σ ε δ α β : Type} {kind : Event → Bool}

theorem pure (x : α) : Extends kind (pure x : Action (Run σ) ε α) := fun r => .refl r

theorem throw (e : ε) : Extends kind (throw e : Action (Run σ) ε α) := fun r => .refl r

theorem liftM (x : Except ε α) : Extends kind (liftM x : Action (Run σ) ε α) := fun r => .refl r

theorem record {e : Event} (h : kind e = true) :
    Extends kind (Run.record e : Action (Run σ) ε Unit) :=
  fun _ => ⟨rfl, [e], rfl, by simp [h]⟩

theorem bind {a : Action (Run σ) ε α} {f : α → Action (Run σ) ε β} (ha : Extends kind a)
    (hf : ∀ x, Extends kind (f x)) : Extends kind (a >>= f) := by
  intro r
  have hr := ha r
  rcases he : exec a r with ⟨x, r'⟩
  rw [he] at hr
  cases x with
  | ok x =>
    rw [exec_bind_of_ok he]
    exact hr.trans (hf x r')
  | error e =>
    rw [exec_bind_of_error he]
    exact hr

theorem ite {p : Prop} [Decidable p] {a b : Action (Run σ) ε α} (ha : Extends kind a)
    (hb : Extends kind b) : Extends kind (if p then a else b) := by
  by_cases h : p
  · rwa [if_pos h]
  · rwa [if_neg h]

theorem mapError {a : Action (Run σ) ε α} (h : Extends kind a) (f : ε → δ) :
    Extends kind (a.mapError f) := by
  intro r
  rw [exec_mapError]
  exact h r

theorem attempt {a : Action (Run σ) ε α} (h : Extends kind a) :
    Extends kind (a.attempt : Action (Run σ) δ (Except ε α)) := fun r => h r

theorem forM {f : α → Action (Run σ) ε PUnit} (h : ∀ x, Extends kind (f x)) (xs : List α) :
    Extends kind (xs.forM f) := by
  induction xs with
  | nil => exact pure PUnit.unit
  | cons x xs ih => exact bind (h x) fun _ => ih

end Extends

end Action

end Relocate
