import Relocate.Proofs.Command.Moves

namespace Relocate.Command

open Relocate.Action

def told (ds : List Deed) : List String :=
  ds.filterMap fun
    | .write text (.ok _) => some text
    | _ => none

theorem told_append (ds ds' : List Deed) : told (ds ++ ds') = told ds ++ told ds' :=
  List.filterMap_append

variable {τ ε δ α β : Type}

/-- From any state, an action does new things, of which with its result `post` holds. -/
def Does (a : Action (τ × List Deed) ε α) (post : Except ε α → List Deed → Prop) : Prop :=
  ∀ t ds, ∃ new, (exec a (t, ds)).2.2 = ds ++ new ∧ post (exec a (t, ds)).1 new

namespace Does

theorem pure {x : α} {post : Except ε α → List Deed → Prop} (h : post (.ok x) []) :
    Does (pure x : Action (τ × List Deed) ε α) post :=
  fun _ ds => ⟨[], (List.append_nil ds).symm, h⟩

theorem throw {e : ε} {post : Except ε α → List Deed → Prop} (h : post (.error e) []) :
    Does (throw e : Action (τ × List Deed) ε α) post :=
  fun _ ds => ⟨[], (List.append_nil ds).symm, h⟩

theorem liftM {r : Except ε α} {post : Except ε α → List Deed → Prop} (h : post r []) :
    Does (liftM r : Action (τ × List Deed) ε α) post :=
  fun _ ds => ⟨[], (List.append_nil ds).symm, h⟩

theorem ensure {holds : Bool} {e : ε} {post : Except ε Unit → List Deed → Prop}
    (h : ∀ res, post res []) : Does (ensure holds e : Action (τ × List Deed) ε Unit) post := by
  cases holds with
  | false => exact liftM (r := .error e) (h _)
  | true => exact pure (h _)

theorem mapError {a : Action (τ × List Deed) ε α} {f : ε → δ} {post : Except δ α → List Deed → Prop}
    (h : Does a fun res new => post (res.mapError f) new) : Does (a.mapError f) post := by
  intro t ds
  rw [exec_mapError]
  exact h t ds

theorem noted {deed : Except ε α → Deed} (a : Action τ ε α) {post : Except ε α → List Deed → Prop}
    (h : ∀ r, post r [deed r]) : Does (noted deed a) post :=
  fun t _ => ⟨[deed (exec a t).1], rfl, h _⟩

theorem mono {a : Action (τ × List Deed) ε α} {post post' : Except ε α → List Deed → Prop}
    (h : Does a post) (hp : ∀ res new, post res new → post' res new) : Does a post' := by
  intro t ds
  obtain ⟨new, hd, hn⟩ := h t ds
  exact ⟨new, hd, hp _ _ hn⟩

theorem bind {a : Action (τ × List Deed) ε α} {f : α → Action (τ × List Deed) ε β}
    {mid : Except ε α → List Deed → Prop} {post : Except ε β → List Deed → Prop} (ha : Does a mid)
    (herror : ∀ e new, mid (.error e) new → post (.error e) new)
    (hok : ∀ x new, mid (.ok x) new → Does (f x) fun res more => post res (new ++ more)) :
    Does (a >>= f) post := by
  intro t ds
  obtain ⟨new, hd, hm⟩ := ha t ds
  rcases he : exec a (t, ds) with ⟨res, t', ds'⟩
  rw [he] at hd hm
  cases res with
  | error e =>
    rw [exec_bind_of_error he]
    exact ⟨new, hd, herror e new hm⟩
  | ok x =>
    obtain ⟨more, hd', hp⟩ := hok x new hm t' ds'
    rw [exec_bind_of_ok he]
    obtain rfl : ds' = ds ++ new := hd
    exact ⟨new ++ more, by rw [hd', List.append_assoc], hp⟩

end Does

/-- An action that reports these pieces, or fails and has reported the first of them. -/
def Tells (a : Action (τ × List Deed) ε α) (pieces : List String) : Prop :=
  Does a fun res new => told new <+: pieces ∧ ∀ x, res = .ok x → told new = pieces

namespace Tells

theorem pure (x : α) : Tells (pure x : Action (τ × List Deed) ε α) [] :=
  Does.pure ⟨List.prefix_rfl, fun _ _ => rfl⟩

theorem liftM (r : Except ε α) : Tells (liftM r : Action (τ × List Deed) ε α) [] :=
  Does.liftM ⟨List.prefix_rfl, fun _ _ => rfl⟩

theorem ensure (holds : Bool) (e : ε) : Tells (ensure holds e : Action (τ × List Deed) ε Unit) [] :=
  Does.ensure fun _ => ⟨List.prefix_rfl, fun _ _ => rfl⟩

theorem noted {deed : Except ε α → Deed} (a : Action τ ε α) (h : ∀ r, told [deed r] = []) :
    Tells (noted deed a) [] :=
  Does.noted a fun r => ⟨List.prefix_nil.mpr (h r), fun _ _ => h r⟩

theorem bind {a : Action (τ × List Deed) ε α} {f : α → Action (τ × List Deed) ε β}
    {pieces pieces' : List String} (ha : Tells a pieces) (hf : ∀ x, Tells (f x) pieces') :
    Tells (a >>= f) (pieces ++ pieces') := by
  refine Does.bind ha (fun e new h => ⟨h.1.trans (List.prefix_append _ _), nofun⟩) fun x new h => ?_
  have hn : told new = pieces := h.2 x rfl
  intro t ds
  obtain ⟨more, hd, hp, hok⟩ := hf x t ds
  refine ⟨more, hd, ?_, fun y hy => ?_⟩
  · rw [told_append, hn]
    exact (List.prefix_append_right_inj pieces).mpr hp
  · rw [told_append, hn, hok y hy]

theorem mapError {a : Action (τ × List Deed) ε α} {pieces : List String} (h : Tells a pieces)
    (f : ε → δ) : Tells (a.mapError f) pieces := by
  refine Does.mapError fun t ds => ?_
  obtain ⟨new, hd, hp, hok⟩ := h t ds
  exact ⟨new, hd, hp, fun x hx => hok x (ok_of_mapError hx)⟩

theorem forM_nil {f : α → Action (τ × List Deed) ε PUnit} (h : ∀ x, Tells (f x) []) (xs : List α) :
    Tells (xs.forM f) [] := by
  induction xs with
  | nil => exact pure PUnit.unit
  | cons x xs ih => exact bind (h x) fun _ => ih

theorem report (s : Surroundings τ) (pieces : List String) :
    Tells (s.recorded.report pieces) pieces := by
  induction pieces with
  | nil => exact pure PUnit.unit
  | cons text pieces ih =>
    have hw : Tells (s.recorded.write text) [text] := by
      intro t ds
      refine ⟨[.write text (exec (s.write text) t).1], rfl, ?_, fun x hx => ?_⟩
      · cases (exec (s.write text) t).1 with
        | ok u => exact List.prefix_rfl
        | error e => exact List.nil_prefix
      · have hx : (exec (s.write text) t).1 = .ok x := hx
        rw [hx]
        rfl
    have hb : Tells (s.recorded.report (text :: pieces)) ([text] ++ pieces) :=
      bind (hw.mapError Failure.io) fun _ => ih
    exact hb

theorem destination (s : Surroundings τ) (given : Option String) (question : String) :
    Tells (s.recorded.destination given question) [] := by
  cases given with
  | some path => exact pure path
  | none => exact (noted (s.ask question) fun _ => rfl).mapError _

theorem confirm (k : Rules) (s : Surroundings τ) (place : Place) :
    Tells (k.confirm s.recorded place) [] := by
  unfold Rules.confirm
  cases k.doubt with
  | none => exact pure ()
  | some e => exact bind (noted (s.session.isSourceFile place) fun _ => rfl) fun b => ensure b e

theorem logs (s : Surroundings τ) (entries : List Log.Entry) : Tells (entries.forM s.recorded.log) [] :=
  forM_nil (fun e => noted (s.log e) fun _ => rfl) entries

end Tells

namespace Rules

def opening (k : Rules) (s : Surroundings τ) : Action τ Failure MovePlan := do
  k.remarks.forM s.log
  let source ← k.source
  let plan ← s.session.beginMove source.1 source.2
  k.permit plan
  return plan

def middle (k : Rules) (s : Surroundings τ) (plan : MovePlan) :
    Action τ Failure (Place × ChangeSet) := do
  s.report (k.announcement plan)
  let place ← k.target s
  (k.notes place).forM s.log
  let changes ← s.session.changesFor plan place
  s.log (k.summary changes)
  return (place, changes)

theorem run_parts (k : Rules) (s : Surroundings τ) :
    k.run s = k.opening s >>= fun plan => k.middle s plan >>= fun found =>
      s.session.apply found.2 >>= fun _ => s.report (k.final plan found.1) := by
  simp only [run, opening, middle, bind_assoc, pure_bind]

def announce (k : Rules) (s : Surroundings τ) : Action τ Failure MovePlan := do
  let plan ← k.opening s
  s.report (k.announcement plan)
  return plan

def proceed (k : Rules) (s : Surroundings τ) (plan : MovePlan) (path : String) :
    Action τ Failure Unit := do
  let place ← k.aim path
  k.confirm s place
  (k.notes place).forM s.log
  let changes ← s.session.changesFor plan place
  s.log (k.summary changes)
  s.session.apply changes
  s.report (k.final plan place)

theorem run_announce (k : Rules) (s : Surroundings τ) :
    k.run s = k.announce s >>= fun plan => s.destination k.given k.question >>= fun path =>
      k.proceed s plan path := by
  simp only [run, target, announce, opening, proceed, bind_assoc, pure_bind]

theorem opening_tells (k : Rules) (s : Surroundings τ) : Tells (k.opening s.recorded) [] := by
  refine .bind (.logs s _) fun _ => .bind (.liftM _) fun source => ?_
  refine .bind (.noted _ fun _ => rfl) fun plan => .bind (.liftM _) fun _ => .pure plan

theorem middle_tells (k : Rules) (s : Surroundings τ) (plan : MovePlan) :
    Tells (k.middle s.recorded plan) (k.announcement plan) := by
  have hrest : Tells (k.target s.recorded >>= fun place =>
      (k.notes place).forM s.recorded.log >>= fun _ =>
        s.recorded.session.changesFor plan place >>= fun changes =>
          s.recorded.log (k.summary changes) >>= fun _ => pure (place, changes)) [] := by
    have htarget : Tells (k.target s.recorded) [] := by
      refine .bind (.destination s _ _) fun path => .bind (.liftM _) fun place => ?_
      exact .bind (.confirm k s place) fun _ => .pure place
    refine .bind htarget fun place => .bind (.logs s _) fun _ => ?_
    refine .bind (.noted _ fun _ => rfl) fun changes => ?_
    exact .bind (.noted _ fun _ => rfl) fun _ => .pure _
  have h := Tells.bind (Tells.report s (k.announcement plan)) fun _ => hrest
  rwa [List.append_nil] at h

/-- Until the changes are made, a moving command reports no more than its announcement, and it does
not succeed. -/
theorem run_tells (k : Rules) (s : Surroundings τ) (t : τ) :
    (∃ changes, .apply changes (.ok ()) ∈ (performed (k.run s.recorded) t).2) ∨
      (∃ e, (exec (k.run s) t).1 = .error e) ∧
        ∃ plan, told (performed (k.run s.recorded) t).2 <+: k.announcement plan := by
  have hresult : (exec (k.run s.recorded) (t, [])).1 = (exec (k.run s) t).1 :=
    congrArg Prod.fst (performed_run k s t)
  have hdeeds : (performed (k.run s.recorded) t).2 = (exec (k.run s.recorded) (t, [])).2.2 := rfl
  -- Of the four parts only the third makes changes, and only the second and the last report.
  rw [hdeeds, ← hresult, run_parts]
  obtain ⟨new, hd, hp, hok⟩ := k.opening_tells s t []
  rcases ho : exec (k.opening s.recorded) (t, []) with ⟨res, t₁, ds⟩
  rw [ho] at hd hok
  obtain rfl : ds = new := hd
  cases res with
  | error e =>
    rw [exec_bind_of_error ho]
    exact .inr ⟨⟨e, rfl⟩, ⟨"", "", .global, .known "" .file⟩, hp.trans List.nil_prefix⟩
  | ok plan =>
    have hnone : told ds = [] := hok plan rfl
    obtain ⟨new, hd, hp, hok⟩ := k.middle_tells s plan t₁ ds
    rw [exec_bind_of_ok ho]
    rcases hm : exec (k.middle s.recorded plan) (t₁, ds) with ⟨res, t₂, ds'⟩
    rw [hm] at hd hok
    obtain rfl : ds' = ds ++ new := hd
    cases res with
    | error e =>
      rw [exec_bind_of_error hm]
      refine .inr ⟨⟨e, rfl⟩, plan, ?_⟩
      rwa [told_append, hnone, List.nil_append]
    | ok found =>
      rw [exec_bind_of_ok hm]
      have ha : exec (s.recorded.session.apply found.2) (t₂, ds ++ new) = _ := exec_noted _ _ t₂ _
      cases hr : (exec (s.session.apply found.2) t₂).1 with
      | error e =>
        rw [hr] at ha
        rw [exec_bind_of_error ha]
        refine .inr ⟨⟨e, rfl⟩, plan, ?_⟩
        have hn : told [.apply found.2 (.error e)] = [] := rfl
        rwa [told_append, told_append, hnone, hn, List.append_nil, List.nil_append]
      | ok u =>
        rw [hr] at ha
        rw [exec_bind_of_ok ha]
        have hf := Tells.report s (k.final plan found.1)
        obtain ⟨more, hd, -⟩ := hf _ _
        rw [hd]
        exact .inl ⟨found.2, by simp⟩

end Rules

end Relocate.Command
