import Relocate.Proofs.Execution
import Relocate.Session.Basic

namespace Relocate

open Relocate.Action

/-- Something a command does to its surroundings, and what came of it. -/
inductive Deed
  | begin (place : Place) (index : Option Nat) (result : Except Failure MovePlan)
  | confirm (place : Place) (result : Except Failure Bool)
  | compute (plan : MovePlan) (target : Place) (result : Except Failure ChangeSet)
  | apply (changes : ChangeSet) (result : Except Failure Unit)
  | list (name : String) (result : Except Failure (List String))
  | ask (question : String) (result : Except Prompt.Error String)
  | write (text : String) (result : Except SystemError Unit)
  | log (entry : Log.Entry) (result : Except Failure Unit)

namespace Deed

def errorOf {ε α : Type} (f : ε → Failure) : Except ε α → Option Failure
  | .ok _ => none
  | .error e => some (f e)

def failure? : Deed → Option Failure
  | .begin _ _ r => errorOf id r
  | .confirm _ r => errorOf id r
  | .compute _ _ r => errorOf id r
  | .apply _ r => errorOf id r
  | .list _ r => errorOf id r
  | .ask _ r => errorOf Prompt.Error.failure r
  | .write _ r => errorOf Failure.io r
  | .log _ r => errorOf id r

variable {τ : Type}

def Carried (s : Surroundings τ) (t : τ) : Deed → τ → Prop
  | .begin place index r, t' => exec (s.session.beginMove place index) t = (r, t')
  | .confirm place r, t' => exec (s.session.isSourceFile place) t = (r, t')
  | .compute plan target r, t' => exec (s.session.changesFor plan target) t = (r, t')
  | .apply changes r, t' => exec (s.session.apply changes) t = (r, t')
  | .list name r, t' => exec (s.session.importCandidates name) t = (r, t')
  | .ask question r, t' => exec (s.ask question) t = (r, t')
  | .write text r, t' => exec (s.write text) t = (r, t')
  | .log entry r, t' => exec (s.log entry) t = (r, t')

end Deed

variable {τ ε δ α β : Type}

/-- The surroundings do from `t` to `t'` what the deeds say, one after the other. -/
def Trace (s : Surroundings τ) : τ → List Deed → τ → Prop
  | t, [], t' => t = t'
  | t, d :: ds, t' => ∃ t₁, d.Carried s t t₁ ∧ Trace s t₁ ds t'

theorem Trace.append {s : Surroundings τ} {t t' t'' : τ} {ds ds' : List Deed}
    (h : Trace s t ds t') (h' : Trace s t' ds' t'') : Trace s t (ds ++ ds') t'' := by
  induction ds generalizing t with
  | nil =>
    obtain rfl : t = t' := h
    exact h'
  | cons d ds ih =>
    obtain ⟨t₁, hd, h⟩ := h
    exact ⟨t₁, hd, ih h⟩

theorem Trace.one {s : Surroundings τ} {t t' : τ} {d : Deed} (h : d.Carried s t t') :
    Trace s t [d] t' := ⟨t', h, rfl⟩

def noted (deed : Except ε α → Deed) (a : Action τ ε α) : Action (τ × List Deed) ε α :=
  ExceptT.mk fun t => ((exec a t.1).1, (exec a t.1).2, t.2 ++ [deed (exec a t.1).1])

theorem exec_noted (deed : Except ε α → Deed) (a : Action τ ε α) (t : τ) (ds : List Deed) :
    exec (noted deed a) (t, ds) = ((exec a t).1, (exec a t).2, ds ++ [deed (exec a t).1]) := rfl

/-- The same surroundings, with a record of all that is done to them. -/
def Surroundings.recorded (s : Surroundings τ) : Surroundings (τ × List Deed) where
  host := s.host
  session :=
    { root := s.session.root
      resolve := s.session.resolve
      beginMove := fun place index => noted (.begin place index) (s.session.beginMove place index)
      isSourceFile := fun place => noted (.confirm place) (s.session.isSourceFile place)
      changesFor := fun plan target =>
        noted (.compute plan target) (s.session.changesFor plan target)
      apply := fun changes => noted (.apply changes) (s.session.apply changes)
      importCandidates := fun name => noted (.list name) (s.session.importCandidates name) }
  ask question := noted (.ask question) (s.ask question)
  write text := noted (.write text) (s.write text)
  log entry := noted (.log entry) (s.log entry)

theorem carried_recorded {s : Surroundings τ} {d : Deed} {t t' : τ} {ds ds' : List Deed}
    (h : d.Carried s.recorded (t, ds) (t', ds')) : ds' = ds ++ [d] := by
  cases d <;> simp only [Deed.Carried, Surroundings.recorded, exec_noted, Prod.mk.injEq] at h <;>
    rw [← h.2.2, h.1]

/-- The record says all that was done, and no more. -/
theorem trace_recorded {s : Surroundings τ} {t t' : τ} {ds rs rs' : List Deed}
    (h : Trace s.recorded (t, rs) ds (t', rs')) : rs' = rs ++ ds := by
  induction ds generalizing t rs with
  | nil =>
    obtain ⟨-, rfl⟩ := Prod.mk.inj (h : (t, rs) = (t', rs'))
    exact (List.append_nil _).symm
  | cons d ds ih =>
    obtain ⟨⟨t₁, rs₁⟩, hd, h⟩ := h
    rw [ih h, carried_recorded hd, List.append_assoc]
    rfl

theorem carried_of_recorded {s : Surroundings τ} {d : Deed} {t t' : τ} {ds ds' : List Deed}
    (h : d.Carried s.recorded (t, ds) (t', ds')) : d.Carried s t t' := by
  cases d <;> simp only [Deed.Carried, Surroundings.recorded, exec_noted, Prod.mk.injEq] at h ⊢ <;>
    exact Prod.ext h.1 h.2.1

theorem trace_of_recorded {s : Surroundings τ} {t t' : τ} {ds rs rs' : List Deed}
    (h : Trace s.recorded (t, rs) ds (t', rs')) : Trace s t ds t' := by
  induction ds generalizing t rs with
  | nil =>
    obtain ⟨rfl, -⟩ := Prod.mk.inj (h : (t, rs) = (t', rs'))
    rfl
  | cons d ds ih =>
    obtain ⟨⟨t₁, rs₁⟩, hd, h⟩ := h
    exact ⟨t₁, carried_of_recorded hd, ih h⟩

/-- `b` does what `a` does and keeps a record of it. -/
def Mirrors (a : Action τ ε α) (b : Action (τ × List Deed) ε α) : Prop :=
  ∀ t ds, (exec b (t, ds)).1 = (exec a t).1 ∧ (exec b (t, ds)).2.1 = (exec a t).2

namespace Mirrors

theorem noted (deed : Except ε α → Deed) (a : Action τ ε α) : Mirrors a (noted deed a) :=
  fun _ _ => ⟨rfl, rfl⟩

theorem pure (x : α) : Mirrors (pure x : Action τ ε α) (pure x) := fun _ _ => ⟨rfl, rfl⟩

theorem liftM (r : Except ε α) : Mirrors (liftM r : Action τ ε α) (liftM r) :=
  fun _ _ => ⟨rfl, rfl⟩

theorem ensure (holds : Bool) (e : ε) :
    Mirrors (ensure holds e : Action τ ε Unit) (ensure holds e) := by
  intro t ds
  rw [exec_ensure, exec_ensure]
  exact ⟨rfl, rfl⟩

theorem bind {a : Action τ ε α} {b : Action (τ × List Deed) ε α} {f : α → Action τ ε β}
    {g : α → Action (τ × List Deed) ε β} (h : Mirrors a b) (hf : ∀ x, Mirrors (f x) (g x)) :
    Mirrors (a >>= f) (b >>= g) := by
  intro t ds
  obtain ⟨hr, ht⟩ := h t ds
  rcases ha : exec a t with ⟨ra, t'⟩
  rcases hb : exec b (t, ds) with ⟨rb, t'', ds'⟩
  rw [ha, hb] at hr ht
  obtain rfl : rb = ra := hr
  obtain rfl : t'' = t' := ht
  cases rb with
  | ok x =>
    rw [exec_bind_of_ok ha, exec_bind_of_ok hb]
    exact hf x t'' ds'
  | error e =>
    rw [exec_bind_of_error ha, exec_bind_of_error hb]
    exact ⟨rfl, rfl⟩

theorem mapError {a : Action τ ε α} {b : Action (τ × List Deed) ε α} (h : Mirrors a b)
    (f : ε → δ) : Mirrors (a.mapError f) (b.mapError f) := by
  intro t ds
  obtain ⟨hr, ht⟩ := h t ds
  rw [exec_mapError, exec_mapError, hr]
  exact ⟨rfl, ht⟩

theorem forM {f : α → Action τ ε PUnit} {g : α → Action (τ × List Deed) ε PUnit}
    (h : ∀ x, Mirrors (f x) (g x)) (xs : List α) : Mirrors (xs.forM f) (xs.forM g) := by
  induction xs with
  | nil => exact pure PUnit.unit
  | cons x xs ih => exact bind (h x) fun _ => ih

end Mirrors

end Relocate
