import Relocate.Proofs.Command.Deed
import Relocate.Proofs.Command.Rules

namespace Relocate.Command

open Relocate.Action

/-- How far a moving command has come. -/
inductive Stage
  | fresh
  | begun (plan : MovePlan)
  | named (plan : MovePlan) (path : String)
  | aimed (plan : MovePlan) (path : String) (target : Place)
  | settled (plan : MovePlan) (path : String) (target : Place)
  | computed (plan : MovePlan) (path : String) (target : Place) (changes : ChangeSet)
  /-- The changes are made; these pieces of the report are still to be written. -/
  | applied (plan : MovePlan) (path : String) (target : Place) (changes : ChangeSet)
    (left : List String)
  | failed (e : Failure)

namespace Stage

def isEarly : Stage → Bool
  | applied .. | failed _ => false
  | _ => true

def hasFailed : Stage → Bool
  | failed _ => true
  | _ => false

def after {ε α : Type} (f : ε → Failure) (next : α → Stage) : Except ε α → Stage
  | .ok a => next a
  | .error e => failed (f e)

@[simp] theorem after_ok {ε α : Type} (f : ε → Failure) (next : α → Stage) (a : α) :
    after f next (.ok a) = next a := rfl

@[simp] theorem after_error {ε α : Type} (f : ε → Failure) (next : α → Stage) (e : ε) :
    after f next (.error e) = .failed (f e) := rfl

end Stage

open Stage

inductive Step (k : Rules) : Stage → List Deed → Stage → Prop
  | log {st : Stage} (h : st.isEarly = true) (entry : Log.Entry) (r : Except Failure Unit) :
    Step k st [.log entry r] (after id (fun _ => st) r)
  | write {st : Stage} (h : st.isEarly = true) (text : String) (r : Except SystemError Unit) :
    Step k st [.write text r] (after .io (fun _ => st) r)
  | locate {e : Failure} (h : k.source = .error e) : Step k .fresh [] (.failed e)
  | begin {place : Place} {index : Option Nat} (h : k.source = .ok (place, index))
    (r : Except Failure MovePlan) : Step k .fresh [.begin place index r] (after id .begun r)
  | forbid {plan : MovePlan} {e : Failure} (h : k.permit plan = .error e) :
    Step k (.begun plan) [] (.failed e)
  | given {plan : MovePlan} {path : String} (h : k.permit plan = .ok ()) (hg : k.given = some path) :
    Step k (.begun plan) [] (.named plan path)
  | ask {plan : MovePlan} (h : k.permit plan = .ok ()) (hg : k.given = none)
    (r : Except Prompt.Error String) :
    Step k (.begun plan) [.ask k.question r] (after Prompt.Error.failure (.named plan) r)
  | aim (plan : MovePlan) (path : String) :
    Step k (.named plan path) [] (after id (.aimed plan path) (k.aim path))
  | trust (plan : MovePlan) (path : String) (target : Place) (h : k.doubt = none) :
    Step k (.aimed plan path target) [] (.settled plan path target)
  | confirm (plan : MovePlan) (path : String) (target : Place) {e : Failure} (h : k.doubt = some e)
    (r : Except Failure Bool) :
    Step k (.aimed plan path target) [.confirm target r]
      (after id (fun b => if b then .settled plan path target else .failed e) r)
  | compute (plan : MovePlan) (path : String) (target : Place) (r : Except Failure ChangeSet) :
    Step k (.settled plan path target) [.compute plan target r]
      (after id (.computed plan path target) r)
  | apply (plan : MovePlan) (path : String) (target : Place) (changes : ChangeSet)
    (r : Except Failure Unit) :
    Step k (.computed plan path target changes) [.apply changes r]
      (after id (fun _ => .applied plan path target changes (k.final plan target)) r)
  | tell (plan : MovePlan) (path : String) (target : Place) (changes : ChangeSet) (text : String)
    (left : List String) (r : Except SystemError Unit) :
    Step k (.applied plan path target changes (text :: left)) [.write text r]
      (after .io (fun _ => .applied plan path target changes left) r)

/-- What a moving command does on the way from one stage to another. -/
inductive Course (k : Rules) (st : Stage) : List Deed → Stage → Prop
  | start : Course k st [] st
  | step {ds l : List Deed} {st' st'' : Stage} (h : Course k st ds st') (hs : Step k st' l st'') :
    Course k st (ds ++ l) st''

theorem Step.label {k : Rules} {st st' : Stage} {l : List Deed} (h : Step k st l st') :
    l = [] ∨ ∃ d, l = [d] := by
  cases h <;> first | exact .inl rfl | exact .inr ⟨_, rfl⟩

theorem Step.not_failed {k : Rules} {st st' : Stage} {l : List Deed} (h : Step k st l st') :
    st.hasFailed = false := by
  cases h with
  | @log st h entry r => cases st <;> first | rfl | cases h
  | @write st h text r => cases st <;> first | rfl | cases h
  | _ => rfl

theorem Course.of_failed {k : Rules} {st st' : Stage} {ds : List Deed} (h : Course k st ds st')
    (hf : st.hasFailed = true) : ds = [] ∧ st' = st := by
  induction h with
  | start => exact ⟨rfl, rfl⟩
  | step h hs ih =>
    obtain ⟨-, rfl⟩ := ih
    rw [hs.not_failed] at hf
    cases hf

theorem Course.split {k : Rules} {st st' : Stage} {ds before after : List Deed} {d : Deed}
    (h : Course k st ds st') (hd : ds = before ++ d :: after) :
    ∃ st₁ st₂, Course k st before st₁ ∧ Step k st₁ [d] st₂ ∧ Course k st₂ after st' := by
  induction h generalizing after with
  | start => simp at hd
  | @step ds l st' st'' h hs ih =>
    obtain rfl | ⟨d', rfl⟩ := hs.label
    · rw [List.append_nil] at hd
      obtain ⟨st₁, st₂, hb, hm, ha⟩ := ih hd
      have ha' := ha.step hs
      rw [List.append_nil] at ha'
      exact ⟨st₁, st₂, hb, hm, ha'⟩
    · obtain rfl | ⟨after', d'', rfl⟩ := after.eq_nil_or_concat
      · obtain ⟨rfl, hd⟩ := List.append_inj' hd rfl
        obtain rfl : d' = d := by simpa using hd
        exact ⟨st', st'', h, hs, .start⟩
      · rw [List.concat_eq_append, ← List.cons_append, ← List.append_assoc] at hd
        obtain ⟨hds, hl⟩ := List.append_inj' hd rfl
        obtain rfl : d' = d'' := by simpa using hl
        obtain ⟨st₁, st₂, hb, hm, ha⟩ := ih hds
        rw [List.concat_eq_append]
        exact ⟨st₁, st₂, hb, hm, ha.step hs⟩

variable {τ : Type}

structure Passed (k : Rules) (s : Surroundings τ) (t : τ) (ds : List Deed) (st : Stage)
    (t' : τ) : Prop where
  trace : Trace s t ds t'
  course : Course k .fresh ds st

def Ends {α : Type} (next : α → Stage → Prop) : Except Failure α → Stage → Prop
  | .ok x, st => next x st
  | .error e, st => st = .failed e

def To {α : Type} (f : α → Stage) (x : α) (st : Stage) : Prop := st = f x

/-- Whatever a command has done up to stage `st`, this part of it does what leads on to `next`. -/
def Leads {α : Type} (k : Rules) (s : Surroundings τ) (st : Stage) (a : Action τ Failure α)
    (next : α → Stage → Prop) : Prop :=
  ∀ t ds t', Passed k s t ds st t' → ∃ ds' st',
    Passed k s t ds' st' (exec a t').2 ∧ Ends next (exec a t').1 st'

namespace Leads

variable {ε α β : Type} {k : Rules} {s : Surroundings τ} {st : Stage}

theorem pure {x : α} {next : α → Stage → Prop} (h : next x st) : Leads k s st (pure x) next :=
  fun _ ds _ hp => ⟨ds, st, hp, h⟩

theorem bind {a : Action τ Failure α} {f : α → Action τ Failure β} {mid : α → Stage}
    {next : β → Stage → Prop} (ha : Leads k s st a (To mid))
    (hf : ∀ x, Leads k s (mid x) (f x) next) : Leads k s st (a >>= f) next := by
  intro t ds t' hp
  obtain ⟨ds', st', hp', he⟩ := ha t ds t' hp
  rcases hr : exec a t' with ⟨r, t''⟩
  rw [hr] at hp' he
  cases r with
  | ok x =>
    obtain rfl : st' = mid x := he
    rw [exec_bind_of_ok hr]
    exact hf x t ds' t'' hp'
  | error e =>
    rw [exec_bind_of_error hr]
    exact ⟨ds', st', hp', he⟩

theorem ends_after {f : ε → Failure} {next : α → Stage} (r : Except ε α) :
    Ends (To next) (r.mapError f) (after f next r) := by
  cases r <;> rfl

theorem still {r : Except Failure α} {next : α → Stage} (h : Step k st [] (after id next r)) :
    Leads k s st (liftM r) (To next) := by
  intro t ds t' hp
  have hc := hp.course.step h
  rw [List.append_nil] at hc
  refine ⟨ds, after id next r, ⟨hp.trace, hc⟩, ?_⟩
  cases r <;> rfl

theorem deed {a : Action τ ε α} {f : ε → Failure} {next : α → Stage} (d : Except ε α → Deed)
    (hd : ∀ t, (d (exec a t).1).Carried s t (exec a t).2)
    (h : ∀ r, Step k st [d r] (after f next r)) : Leads k s st (a.mapError f) (To next) := by
  intro t ds t' hp
  rw [exec_mapError]
  exact ⟨_, _, ⟨hp.trace.append (.one (hd t')), hp.course.step (h _)⟩, ends_after _⟩

theorem call {a : Action τ Failure α} {next : α → Stage} (d : Except Failure α → Deed)
    (hd : ∀ t, (d (exec a t).1).Carried s t (exec a t).2)
    (h : ∀ r, Step k st [d r] (after id next r)) : Leads k s st a (To next) := by
  have hl := deed (f := id) d hd h
  rwa [mapError_id] at hl

theorem logs (h : st.isEarly = true) (entries : List Log.Entry) :
    Leads k s st (entries.forM s.log) (To fun _ => st) := by
  induction entries with
  | nil => exact pure rfl
  | cons e entries ih => exact bind (call (.log e) (fun _ => rfl) (.log h e)) fun _ => ih

theorem report (h : st.isEarly = true) (pieces : List String) :
    Leads k s st (s.report pieces) (To fun _ => st) := by
  induction pieces with
  | nil => exact pure rfl
  | cons text pieces ih =>
    exact bind (deed (.write text) (fun _ => rfl) (.write h text)) fun _ => ih

theorem lastReport (plan : MovePlan) (path : String) (target : Place) (changes : ChangeSet)
    (left : List String) :
    Leads k s (.applied plan path target changes left) (s.report left)
      (To fun _ => .applied plan path target changes []) := by
  induction left with
  | nil => exact pure rfl
  | cons text left ih =>
    exact bind (deed (.write text) (fun _ => rfl) (.tell plan path target changes text left))
      fun _ => ih

theorem destination {plan : MovePlan} (h : k.permit plan = .ok ()) :
    Leads k s (.begun plan) (s.destination k.given k.question) (To (.named plan)) := by
  unfold Surroundings.destination
  cases hg : k.given with
  | none => exact deed (.ask k.question) (fun _ => rfl) (.ask h hg)
  | some path => exact still (r := .ok path) (.given h hg)

theorem confirm (plan : MovePlan) (path : String) (target : Place) :
    Leads k s (.aimed plan path target) (k.confirm s target)
      (To fun _ => .settled plan path target) := by
  unfold Rules.confirm
  cases hd : k.doubt with
  | none => exact still (r := .ok ()) (.trust plan path target hd)
  | some e =>
    refine bind (call (.confirm target) (fun _ => rfl) (.confirm plan path target hd)) fun b => ?_
    cases b with
    | true => exact pure rfl
    | false => exact fun _ ds _ hp => ⟨ds, _, hp, rfl⟩

theorem failed {e : Failure} {next : α → Stage → Prop} (h : Step k st [] (.failed e)) :
    Leads k s st (throw e) next := by
  intro t ds t' hp
  have hc := hp.course.step h
  rw [List.append_nil] at hc
  exact ⟨ds, .failed e, ⟨hp.trace, hc⟩, rfl⟩

end Leads

theorem Rules.run_leads (k : Rules) (s : Surroundings τ) :
    Leads k s .fresh (k.run s) fun _ st =>
      ∃ plan path target changes, st = .applied plan path target changes [] := by
  refine .bind (.logs rfl _) fun _ => ?_
  cases hs : k.source with
  | error e => exact .failed (.locate hs)
  | ok source =>
    rw [liftM_ok, pure_bind]
    refine .bind (.call (.begin source.1 source.2) (fun _ => rfl) (.begin hs)) fun plan => ?_
    cases hp : k.permit plan with
    | error e => exact .failed (.forbid hp)
    | ok u =>
      rw [liftM_ok, pure_bind]
      refine .bind (.report rfl _) fun _ => ?_
      rw [Rules.target, bind_assoc]
      refine .bind (.destination hp) fun path => ?_
      rw [bind_assoc]
      refine .bind (.still (.aim plan path)) fun target => ?_
      rw [bind_assoc]
      refine .bind (.confirm plan path target) fun _ => ?_
      rw [pure_bind]
      refine .bind (.logs rfl _) fun _ => ?_
      refine .bind (.call (.compute plan target) (fun _ => rfl) (.compute plan path target)) ?_
      intro changes
      refine .bind (.call (.log _) (fun _ => rfl) (.log rfl _)) fun _ => ?_
      refine .bind (.call (.apply changes) (fun _ => rfl) (.apply plan path target changes)) ?_
      rintro ⟨⟩ t ds t' h
      obtain ⟨ds', st', h', he⟩ := Leads.lastReport plan path target changes _ t ds t' h
      refine ⟨ds', st', h', ?_⟩
      cases hr : (exec (s.report (k.final plan target)) t').1 with
      | ok u => rw [hr] at he; exact ⟨plan, path, target, changes, he⟩
      | error e => rw [hr] at he; exact he

/-- All that a moving command does. -/
theorem Rules.run_course (k : Rules) (s : Surroundings τ) (t : τ) :
    ∃ ds st, Trace s t ds (exec (k.run s) t).2 ∧ Course k .fresh ds st ∧
      Ends (fun _ st => ∃ plan path target changes, st = .applied plan path target changes [])
        (exec (k.run s) t).1 st := by
  obtain ⟨ds, st, ⟨ht, hc⟩, he⟩ := k.run_leads s t [] t ⟨rfl, .start⟩
  exact ⟨ds, st, ht, hc, he⟩

end Relocate.Command
