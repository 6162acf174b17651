import Relocate.Proofs.Command.Orderly

namespace Relocate.Command

open Relocate.Action

variable {τ : Type}

theorem mirrors_report (s : Surroundings τ) (pieces : List String) :
    Mirrors (s.report pieces) (s.recorded.report pieces) := by
  unfold Surroundings.report
  exact .forM (fun piece => .mapError (.noted (.write piece) (s.write piece)) Failure.io) pieces

theorem mirrors_destination (s : Surroundings τ) (given : Option String) (question : String) :
    Mirrors (s.destination given question) (s.recorded.destination given question) := by
  cases given with
  | some path => exact .pure path
  | none => exact (Mirrors.noted (.ask question) (s.ask question)).mapError _

theorem mirrors_confirm (k : Rules) (s : Surroundings τ) (place : Place) :
    Mirrors (k.confirm s place) (k.confirm s.recorded place) := by
  unfold Rules.confirm
  cases k.doubt with
  | none => exact .pure ()
  | some e => exact (Mirrors.noted (.confirm place) _).bind fun b => .ensure b e

theorem mirrors_run (k : Rules) (s : Surroundings τ) : Mirrors (k.run s) (k.run s.recorded) := by
  refine .bind (.forM (fun e => .noted (.log e) _) _) fun _ => ?_
  refine .bind (.liftM _) fun source => ?_
  refine .bind (.noted (.begin source.1 source.2) _) fun plan => ?_
  refine .bind (.liftM _) fun _ => ?_
  refine .bind (mirrors_report s _) fun _ => ?_
  refine .bind ?_ fun target => ?_
  · refine .bind (mirrors_destination s _ _) fun path => ?_
    refine .bind (.liftM _) fun place => ?_
    exact .bind (mirrors_confirm k s place) fun _ => .pure place
  · refine .bind (.forM (fun e => .noted (.log e) _) _) fun _ => ?_
    refine .bind (.noted (.compute plan target) _) fun changes => ?_
    refine .bind (.noted (.log _) _) fun _ => ?_
    exact .bind (.noted (.apply changes) _) fun _ => mirrors_report s _

def performed (a : Action (τ × List Deed) Failure Unit) (t : τ) :
    (Except Failure Unit × τ) × List Deed :=
  ((exec a (t, []) |>.1, exec a (t, []) |>.2.1), exec a (t, []) |>.2.2)

theorem performed_run (k : Rules) (s : Surroundings τ) (t : τ) :
    (performed (k.run s.recorded) t).1 = exec (k.run s) t :=
  Prod.ext (mirrors_run k s t []).1 (mirrors_run k s t []).2

theorem performed_course (k : Rules) (s : Surroundings τ) (t : τ) :
    ∃ st, Trace s t (performed (k.run s.recorded) t).2 (exec (k.run s) t).2 ∧
      Course k .fresh (performed (k.run s.recorded) t).2 st ∧
      Ends (fun _ st => ∃ plan path target changes, st = .applied plan path target changes [])
        (exec (k.run s) t).1 st := by
  obtain ⟨ds, st, ht, hc, he⟩ := k.run_course s.recorded (t, [])
  have hd : (performed (k.run s.recorded) t).2 = ds := trace_recorded ht
  have hp := performed_run k s t
  rcases hx : exec (k.run s) t with ⟨res, t'⟩
  rw [hx] at hp
  have hr : (exec (k.run s.recorded) (t, [])).1 = res := congrArg Prod.fst hp
  have hs : (exec (k.run s.recorded) (t, [])).2.1 = t' := congrArg Prod.snd hp
  rw [hr] at he
  have ht' := trace_of_recorded ht
  rw [hs] at ht'
  rw [hd]
  exact ⟨st, ht', hc, he⟩

theorem run_orderly (k : Rules) (s : Surroundings τ) (t : τ) :
    Orderly k (performed (k.run s.recorded) t).2 (exec (k.run s) t).1 := by
  obtain ⟨st, -, hc, he⟩ := performed_course k s t
  exact hc.orderly he

theorem Move.permit_ok {plan : MovePlan} (h : permit plan = .ok ()) : plan.kind = .global := by
  unfold permit at h
  cases hk : plan.kind with
  | global => rfl
  | module => simp [hk] at h
  | method => simp [hk] at h

theorem Move.aim_ok {s : Surroundings τ} {path : String} {target : Place}
    (h : aim s path = .ok target) :
    s.host.isFile path = true ∧ target.isFolder = false ∧
      s.session.resolve path .file = .ok target := by
  unfold aim at h
  cases hf : s.host.isFile path with
  | false => simp [hf] at h
  | true =>
    cases hr : s.session.resolve path .file with
    | error e => simp [hf, hr] at h
    | ok place =>
      cases hp : place.isFolder with
      | true => simp [hf, hr, hp] at h
      | false =>
        obtain rfl : place = target := by simpa [hf, hr, hp] using h
        exact ⟨rfl, hp, rfl⟩

theorem MoveModule.aim_ok {s : Surroundings τ} {path : String} {target : Place}
    (h : aim s path = .ok target) : target.isFolder = true ∧
      s.session.resolve path .folder = .ok target := by
  unfold aim at h
  cases hr : s.session.resolve path .folder with
  | error e => simp [hr] at h
  | ok place =>
    cases hp : place.isFolder with
    | false => simp [hr, hp] at h
    | true =>
      obtain rfl : place = target := by simpa [hr, hp] using h
      exact ⟨hp, rfl⟩

theorem MoveModule.aim_refused {s : Surroundings τ} {path : String} {place : Place}
    (h : s.session.resolve path .folder = .ok place)
    (hk : place.isFolder = false) : aim s path = .error notFolder := by
  unfold aim
  rw [h]
  simp [hk]

/-- Changes are made only if they are what the engine has computed for the plan that it has begun,
and for a destination that fits. -/
def AppliesFor (deeds : List Deed) (fits : List Deed → MovePlan → Place → Prop) : Prop :=
  ∀ before changes r after, deeds = before ++ .apply changes r :: after → ∃ plan target,
    (∃ place index, .begin place index (.ok plan) ∈ before) ∧
      .compute plan target (.ok changes) ∈ before ∧ fits before plan target

/-- Both moving commands, for any engine, user and report: they go through the phases of a move in
order, stop at the first thing that goes wrong, and make changes only when all is known and allowed.
What moves to another file is global, and the file is a source file; what a module moves to is a
folder. -/
theorem moves_orderly (s : Surroundings τ) (t : τ) :
    (∀ m : Move, (performed (m.run s.recorded) t).1 = exec (m.run s) t ∧
      Orderly (m.rules s) (performed (m.run s.recorded) t).2 (exec (m.run s) t).1 ∧
      AppliesFor (performed (m.run s.recorded) t).2 fun before plan target =>
        plan.kind = .global ∧ target.isFolder = false ∧ .confirm target (.ok true) ∈ before ∧
          ∃ path, s.session.resolve path .file = .ok target) ∧
    ∀ m : MoveModule, (performed (m.run s.recorded) t).1 = exec (m.run s) t ∧
      Orderly (m.rules s) (performed (m.run s.recorded) t).2 (exec (m.run s) t).1 ∧
      AppliesFor (performed (m.run s.recorded) t).2 fun _ _ target => target.isFolder = true ∧
        ∃ path, s.session.resolve path .folder = .ok target := by
  constructor
  · intro m
    rw [m.run_eq s, m.run_eq s.recorded]
    have ho : Orderly (m.rules s) _ _ := run_orderly (m.rules s) s t
    refine ⟨performed_run (m.rules s) s t, ho, ?_⟩
    intro before changes r after hd
    obtain ⟨plan, target, hw⟩ := ho.warranted before changes r after hd
    obtain ⟨place, index, -, hb⟩ := hw.begun
    obtain ⟨path, -, ha⟩ := hw.aimed
    obtain ⟨-, hf, hr⟩ := Move.aim_ok ha
    refine ⟨plan, target, ⟨place, index, hb⟩, hw.computed, Move.permit_ok hw.permitted, hf, ?_, path, hr⟩
    exact hw.confirmed nofun
  · intro m
    rw [m.run_eq s, m.run_eq s.recorded]
    have ho : Orderly (m.rules s) _ _ := run_orderly (m.rules s) s t
    refine ⟨performed_run (m.rules s) s t, ho, ?_⟩
    intro before changes r after hd
    obtain ⟨plan, target, hw⟩ := ho.warranted before changes r after hd
    obtain ⟨place, index, -, hb⟩ := hw.begun
    obtain ⟨path, -, ha⟩ := hw.aimed
    obtain ⟨hf, hr⟩ := MoveModule.aim_ok ha
    exact ⟨plan, target, ⟨place, index, hb⟩, hw.computed, hf, path, hr⟩

end Relocate.Command
