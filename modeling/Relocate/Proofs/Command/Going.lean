import Relocate.Proofs.Command.Course

namespace Relocate.Command

open Relocate.Action Stage

def isCall : Deed → Bool
  | .write .. | .log .. => false
  | _ => true

def asked (k : Rules) (path : String) : List Deed :=
  if k.given = none then [.ask k.question (.ok path)] else []

def confirmed (k : Rules) (target : Place) : List Deed :=
  if k.doubt = none then [] else [.confirm target (.ok true)]

def callsTo (k : Rules) (place : Place) (index : Option Nat) : Stage → List Deed
  | .fresh | .failed _ => []
  | .begun plan => [.begin place index (.ok plan)]
  | .named plan path | .aimed plan path _ => .begin place index (.ok plan) :: asked k path
  | .settled plan path target =>
    .begin place index (.ok plan) :: (asked k path ++ confirmed k target)
  | .computed plan path target changes =>
    .begin place index (.ok plan) :: (asked k path ++ confirmed k target
      ++ [.compute plan target (.ok changes)])
  | .applied plan path target changes _ =>
    .begin place index (.ok plan) :: (asked k path ++ confirmed k target
      ++ [.compute plan target (.ok changes), .apply changes (.ok ())])

theorem filterMap_calls {β : Type} (f : Deed → Option β) (hf : ∀ d, isCall d = false → f d = none)
    {ds : List Deed} : ds.filterMap f = (ds.filter isCall).filterMap f := by
  induction ds with
  | nil => rfl
  | cons d ds ih =>
    cases hd : isCall d with
    | false => rw [List.filterMap_cons_none (hf d hd), List.filter_cons_of_neg (by simp [hd]), ih]
    | true => rw [List.filter_cons_of_pos hd, List.filterMap_cons, List.filterMap_cons, ih]

def Kept (k : Rules) : Stage → Prop
  | .fresh | .begun _ | .failed _ => True
  | .named plan path => k.permit plan = .ok () ∧ (k.given = none ∨ k.given = some path)
  | .aimed plan path target | .settled plan path target | .computed plan path target _
  | .applied plan path target _ _ =>
    k.permit plan = .ok () ∧ (k.given = none ∨ k.given = some path) ∧ k.aim path = .ok target

/-- What holds as long as nothing has failed. -/
structure Going (k : Rules) (ds : List Deed) (st : Stage) : Prop where
  calm : ∀ d ∈ ds, d.failure? = none
  kept : Kept k st
  calls : ∃ place index, (st = .fresh ∨ k.source = .ok (place, index)) ∧
    ds.filter isCall = callsTo k place index st

namespace Going

variable {k : Rules} {ds l : List Deed} {st st' : Stage} {d : Deed}

theorem calm_append (h : Going k ds st) (hd : d.failure? = none) :
    ∀ d' ∈ ds ++ [d], d'.failure? = none := by
  simpa [or_imp, forall_and, hd] using h.calm

theorem quiet (h : Going k ds st) (hd : d.failure? = none) (hc : isCall d = false) :
    Going k (ds ++ [d]) st := by
  obtain ⟨place, index, hs, hcs⟩ := h.calls
  exact ⟨h.calm_append hd, h.kept, place, index, hs, by simpa [hc] using hcs⟩

theorem still (h : Going k ds st) (hk : Kept k st') (hst : st ≠ .fresh)
    (hc : ∀ place index, callsTo k place index st' = callsTo k place index st) : Going k ds st' := by
  obtain ⟨place, index, hs, hcs⟩ := h.calls
  exact ⟨h.calm, hk, place, index, .inr (hs.resolve_left hst), by rw [hcs, hc]⟩

theorem call (h : Going k ds st) (hk : Kept k st') (hd : d.failure? = none) (hi : isCall d = true)
    (hst : st ≠ .fresh)
    (hc : ∀ place index, callsTo k place index st' = callsTo k place index st ++ [d]) :
    Going k (ds ++ [d]) st' := by
  obtain ⟨place, index, hs, hcs⟩ := h.calls
  refine ⟨h.calm_append hd, hk, place, index, .inr (hs.resolve_left hst), ?_⟩
  rw [List.filter_append, hcs, hc, List.filter_cons_of_pos hi, List.filter_nil]

theorem step (h : Going k ds st) (hs : Step k st l st') (hf : st'.hasFailed = false) :
    Going k (ds ++ l) st' := by
  have hk := h.kept
  cases hs with
  | log he entry r =>
    cases r with
    | ok u => exact h.quiet rfl rfl
    | error e => cases hf
  | write he text r =>
    cases r with
    | ok u => exact h.quiet rfl rfl
    | error e => cases hf
  | locate hs => cases hf
  | @begin place index hs r =>
    cases r with
    | ok plan =>
      obtain ⟨_, _, -, hc⟩ := h.calls
      refine ⟨h.calm_append rfl, trivial, place, index, .inr hs, ?_⟩
      rw [List.filter_append, hc]
      rfl
    | error e => cases hf
  | forbid hp => cases hf
  | given hp hg =>
    rw [List.append_nil]
    exact h.still ⟨hp, .inr hg⟩ nofun fun _ _ => by simp [callsTo, asked, hg]
  | ask hp hg r =>
    cases r with
    | ok path =>
      exact h.call ⟨hp, .inl hg⟩ rfl rfl nofun fun _ _ => by simp [callsTo, asked, hg]
    | error e => cases hf
  | aim plan path =>
    cases ha : k.aim path with
    | ok target =>
      rw [List.append_nil]
      exact h.still ⟨hk.1, hk.2, ha⟩ nofun fun _ _ => rfl
    | error e => rw [ha] at hf; cases hf
  | trust plan path target hd =>
    rw [List.append_nil]
    exact h.still hk nofun fun _ _ => by simp [callsTo, confirmed, hd]
  | confirm plan path target hd r =>
    cases r with
    | ok b =>
      cases b with
      | true => exact h.call hk rfl rfl nofun fun _ _ => by simp [callsTo, confirmed, hd]
      | false => cases hf
    | error e => cases hf
  | compute plan path target r =>
    cases r with
    | ok changes => exact h.call hk rfl rfl nofun fun _ _ => by simp [callsTo]
    | error e => cases hf
  | apply plan path target changes r =>
    cases r with
    | ok u => exact h.call hk rfl rfl nofun fun _ _ => by simp [callsTo]
    | error e => cases hf
  | tell plan path target changes text left r =>
    cases r with
    | ok u =>
      have hq : Going k (ds ++ [.write text (.ok u)]) _ := h.quiet rfl rfl
      exact hq.still hk nofun fun _ _ => rfl
    | error e => cases hf

end Going

theorem Course.going {k : Rules} {ds : List Deed} {st : Stage} (h : Course k .fresh ds st)
    (hf : st.hasFailed = false) : Going k ds st := by
  induction h with
  | start => exact ⟨List.forall_mem_nil _, trivial, .known "" .file, none, .inl rfl, rfl⟩
  | step h hs ih => exact (ih hs.not_failed).step hs hf

/-- What has brought a command to a failure: a deed that failed, or a rule that is not kept. -/
theorem Course.last {k : Rules} {ds : List Deed} {e : Failure} (h : Course k .fresh ds (.failed e)) :
    ∃ ds' l st, ds = ds' ++ l ∧ Going k ds' st ∧ Step k st l (.failed e) := by
  cases h with
  | step h hs => exact ⟨_, _, _, rfl, h.going hs.not_failed, hs⟩

end Relocate.Command
