import Relocate.Command.ShowImports
import Relocate.Proofs.Command.Telling
import Relocate.Proofs.Imports

namespace Relocate.Command

open Relocate.Action
open Imports (kept statement Keeps)

variable {τ α β : Type}

def isRemark : Deed → Bool
  | .write .. | .log .. => true
  | _ => false

/-- Remarks that are made one after the other, by which these pieces are reported. The first that is
not taken is the last. -/
inductive Remarked (s : Surroundings τ) (pieces : List String) : Except Failure α → List Deed → Prop
  | all {x : α} {ds : List Deed} (hr : ∀ d ∈ ds, isRemark d = true ∧ d.failure? = none)
    (ht : told ds = pieces) : Remarked s pieces (.ok x) ds
  | cut {ds : List Deed} {d : Deed} {e : Failure} {t t' : τ}
    (hr : ∀ d ∈ ds, isRemark d = true ∧ d.failure? = none) (hd : isRemark d = true)
    (hf : d.failure? = some e) (hc : d.Carried s t t') (ht : told ds <+: pieces) :
    Remarked s pieces (.error e) (ds ++ [d])

def Remarks (s : Surroundings τ) (a : Action (τ × List Deed) Failure α) (pieces : List String) :
    Prop := Does a (Remarked s pieces)

namespace Remarks

variable {s : Surroundings τ}

theorem pure (x : α) : Remarks s (pure x) [] := Does.pure (.all (List.forall_mem_nil _) rfl)

theorem bind {a : Action (τ × List Deed) Failure α} {f : α → Action (τ × List Deed) Failure β}
    {pieces pieces' : List String} (ha : Remarks s a pieces) (hf : ∀ x, Remarks s (f x) pieces') :
    Remarks s (a >>= f) (pieces ++ pieces') := by
  refine Does.bind ha ?_ ?_
  · rintro e new (_ | ⟨hr, hd, hf, hc, ht⟩)
    exact .cut hr hd hf hc (ht.trans (List.prefix_append _ _))
  · rintro x new (⟨hr, ht⟩ | _)
    refine (hf x).mono ?_
    rintro res more (⟨hr', ht'⟩ | ⟨hr', hd, hf, hc, ht'⟩)
    · refine .all (List.forall_mem_append.mpr ⟨hr, hr'⟩) ?_
      rw [told_append, ht, ht']
    · rw [← List.append_assoc]
      refine .cut (List.forall_mem_append.mpr ⟨hr, hr'⟩) hd hf hc ?_
      rw [told_append, ht]
      exact (List.prefix_append_right_inj pieces).mpr ht'

theorem forM {f : α → Action (τ × List Deed) Failure PUnit} {pieces : α → List String}
    (h : ∀ x, Remarks s (f x) (pieces x)) (xs : List α) :
    Remarks s (xs.forM f) (xs.flatMap pieces) := by
  induction xs with
  | nil => exact pure PUnit.unit
  | cons x xs ih => exact bind (h x) fun _ => ih

theorem one {ε : Type} (deed : Except ε α → Deed) (a : Action τ ε α) {f : ε → Failure}
    {pieces : List String} (hc : ∀ t, (deed (exec a t).1).Carried s t (exec a t).2)
    (hr : ∀ r, isRemark (deed r) = true) (hok : ∀ x, (deed (.ok x)).failure? = none)
    (herror : ∀ e, (deed (.error e)).failure? = some (f e)) (ht : ∀ x, told [deed (.ok x)] = pieces) :
    Remarks s ((noted deed a).mapError f) pieces := by
  refine Does.mapError fun t ds => ⟨[deed (exec a t).1], rfl, ?_⟩
  have hc := hc t
  have hres : (exec (noted deed a) (t, ds)).1 = (exec a t).1 := rfl
  rw [hres]
  cases hx : (exec a t).1 with
  | ok x => exact .all (by simp [hr, hok]) (ht x)
  | error e =>
    rw [hx] at hc
    have hcut : Remarked s pieces (.error (f e) : Except Failure α) ([] ++ [deed (.error e)]) :=
      .cut (List.forall_mem_nil _) (hr _) (herror e) hc List.nil_prefix
    exact hcut

theorem log (entry : Log.Entry) : Remarks s (s.recorded.log entry) [] := by
  have h : Remarks s ((s.recorded.log entry).mapError id) [] :=
    one (.log entry) (s.log entry) (fun _ => rfl) (fun _ => rfl) (fun _ => rfl) (fun _ => rfl)
      fun _ => rfl
  rwa [mapError_id] at h

theorem logs (entry : α → Log.Entry) (xs : List α) :
    Remarks s (xs.forM fun x => s.recorded.log (entry x)) [] := by
  have h := forM (fun x => log (s := s) (entry x)) xs
  rwa [List.flatMap_eq_nil_iff.mpr fun _ _ => rfl] at h

theorem report (pieces : List String) : Remarks s (s.recorded.report pieces) pieces := by
  have hw (text : String) : Remarks s ((s.recorded.write text).mapError Failure.io) [text] :=
    one (.write text) (s.write text) (fun _ => rfl) (fun _ => rfl) (fun _ => rfl) (fun _ => rfl)
      fun _ => rfl
  have h := forM hw pieces
  rwa [List.flatMap_singleton'] at h

end Remarks

namespace ShowImports

def offer (s : Surroundings τ) (c : ShowImports) (candidates : List String) :
    Action τ Failure Unit := do
  (candidates.filter (Imports.isVendored c.vendorPrefixes)).forM fun m =>
    s.log ⟨.imports, .debug, "skipping vendored import candidate", [("module", m)]⟩
  let modules := Imports.kept c.vendorPrefixes candidates
  s.log ⟨.showImports, .debug, "import candidates",
    [("name", c.name), ("found", toString candidates.length), ("kept", toString modules.length)]⟩
  if modules.isEmpty then throw (noModules c.name)
  modules.forM fun m => s.report [Imports.statement m c.name, "\n"]

theorem run_eq (s : Surroundings τ) (c : ShowImports) :
    c.run s = s.session.importCandidates c.name >>= c.offer s := rfl

def lines (c : ShowImports) (candidates : List String) : List String :=
  (kept c.vendorPrefixes candidates).flatMap fun m => ["from " ++ m ++ " import " ++ c.name, "\n"]

/-- What showing imports does and comes to, from the answer of the engine on. -/
inductive Listing (s : Surroundings τ) (c : ShowImports) :
    Except Failure (List String) → List Deed → Except Failure Unit → Prop
  | refused (e : Failure) : Listing s c (.error e) [.list c.name (.error e)] (.error e)
  | listed {candidates : List String} {ds : List Deed}
    (hk : kept c.vendorPrefixes candidates ≠ [])
    (hr : ∀ d ∈ ds, isRemark d = true ∧ d.failure? = none) (ht : told ds = c.lines candidates) :
    Listing s c (.ok candidates) (.list c.name (.ok candidates) :: ds) (.ok ())
  | nothing {candidates : List String} {ds : List Deed}
    (hk : kept c.vendorPrefixes candidates = [])
    (hr : ∀ d ∈ ds, isRemark d = true ∧ d.failure? = none) (ht : told ds = []) :
    Listing s c (.ok candidates) (.list c.name (.ok candidates) :: ds)
      (.error (.guard ("No modules found for `" ++ c.name ++ "`")))
  /-- The report or the log does not take what it is given. -/
  | hindered {candidates : List String} {ds : List Deed} {d : Deed} {e : Failure} {t t' : τ}
    (hr : ∀ d ∈ ds, isRemark d = true ∧ d.failure? = none) (hd : isRemark d = true)
    (hf : d.failure? = some e) (hc : d.Carried s t t') (ht : told ds <+: c.lines candidates) :
    Listing s c (.ok candidates) (.list c.name (.ok candidates) :: (ds ++ [d])) (.error e)

def account (s : Surroundings τ) (c : ShowImports) (candidates : List String) :
    Action τ Failure Unit := do
  (candidates.filter (Imports.isVendored c.vendorPrefixes)).forM fun m =>
    s.log ⟨.imports, .debug, "skipping vendored import candidate", [("module", m)]⟩
  s.log ⟨.showImports, .debug, "import candidates",
    [("name", c.name), ("found", toString candidates.length),
      ("kept", toString (kept c.vendorPrefixes candidates).length)]⟩

theorem offer_eq (s : Surroundings τ) (c : ShowImports) (candidates : List String) :
    c.offer s candidates = c.account s candidates >>= fun _ =>
      if kept c.vendorPrefixes candidates = [] then throw (noModules c.name)
      else (kept c.vendorPrefixes candidates).forM fun m => s.report [statement m c.name, "\n"] := by
  unfold offer account
  rw [bind_assoc]
  refine bind_congr fun _ => bind_congr fun _ => ?_
  cases kept c.vendorPrefixes candidates <;> rfl

theorem account_remarks (s : Surroundings τ) (c : ShowImports) (candidates : List String) :
    Remarks s (c.account s.recorded candidates) [] :=
  .bind (.logs _ _) fun _ => .log _

theorem offer_listing (s : Surroundings τ) (c : ShowImports) (candidates : List String) :
    Does (c.offer s.recorded candidates) fun res ds =>
      Listing s c (.ok candidates) (.list c.name (.ok candidates) :: ds) res := by
  have ha := c.account_remarks s candidates
  rw [offer_eq]
  by_cases hk : kept c.vendorPrefixes candidates = []
  · rw [if_pos hk]
    refine Does.bind ha ?_ ?_
    · rintro e ds (_ | ⟨hr, hd, hf, hc, ht⟩)
      exact .hindered hr hd hf hc (ht.trans List.nil_prefix)
    · rintro u ds (⟨hr, ht⟩ | _)
      refine Does.throw ?_
      rw [List.append_nil]
      exact .nothing hk hr ht
  · rw [if_neg hk]
    have hl : Remarks s ((kept c.vendorPrefixes candidates).forM fun m =>
        s.recorded.report [statement m c.name, "\n"]) (c.lines candidates) :=
      .forM (fun m => .report _) _
    refine (ha.bind fun _ => hl).mono ?_
    rintro res ds (⟨hr, ht⟩ | ⟨hr, hd, hf, hc, ht⟩)
    · exact .listed hk hr ht
    · exact .hindered hr hd hf hc ht

theorem mirrors_run (s : Surroundings τ) (c : ShowImports) : Mirrors (c.run s) (c.run s.recorded) := by
  rw [run_eq, run_eq]
  refine .bind (.noted (.list c.name) _) fun candidates => ?_
  rw [offer_eq, offer_eq]
  refine .bind (.bind (.forM (fun m => .noted (.log _) _) _) fun _ => .noted (.log _) _) fun _ => ?_
  split
  · exact .liftM (.error _)
  · exact .forM (fun m => mirrors_report s _) _

theorem run_listing (s : Surroundings τ) (c : ShowImports) (t : τ) :
    Listing s c (exec (s.session.importCandidates c.name) t).1 (performed (c.run s.recorded) t).2
      (exec (c.run s) t).1 := by
  have hl : exec (s.recorded.session.importCandidates c.name) (t, []) =
      ((exec (s.session.importCandidates c.name) t).1, (exec (s.session.importCandidates c.name) t).2,
        [.list c.name (exec (s.session.importCandidates c.name) t).1]) := rfl
  have hd : (performed (c.run s.recorded) t).2 = (exec (c.run s.recorded) (t, [])).2.2 := rfl
  rw [← (mirrors_run s c t []).1, hd, run_eq]
  cases ha : (exec (s.session.importCandidates c.name) t).1 with
  | error e =>
    rw [ha] at hl
    rw [exec_bind_of_error hl]
    exact .refused e
  | ok candidates =>
    rw [ha] at hl
    rw [exec_bind_of_ok hl]
    obtain ⟨ds, hds, h⟩ := c.offer_listing s candidates (exec (s.session.importCandidates c.name) t).2
      [.list c.name (.ok candidates)]
    rw [hds]
    exact h

/-- Showing imports, for any engine, user and report. The modules that are kept are the candidates with
no vendored prefix, each where it occurs first; the order of the prefixes does not matter, and they may
be taken one list after the other. There is a line for each module in turn, and if there is none,
nothing is reported and that is the failure. -/
theorem imports_listed :
    (∀ prefixes candidates modules,
      kept prefixes candidates = modules ↔ Keeps prefixes candidates modules) ∧
    (∀ prefixes prefixes', (∀ p, p ∈ prefixes ↔ p ∈ prefixes') → ∀ candidates,
      kept prefixes candidates = kept prefixes' candidates) ∧
    (∀ prefixes prefixes' candidates,
      kept prefixes' (kept prefixes candidates) = kept (prefixes ++ prefixes') candidates) ∧
    ∀ (s : Surroundings τ) (c : ShowImports) (t : τ),
      (performed (c.run s.recorded) t).1 = exec (c.run s) t ∧
        Listing s c (exec (s.session.importCandidates c.name) t).1 (performed (c.run s.recorded) t).2
          (exec (c.run s) t).1 := by
  refine ⟨fun _ _ _ => Imports.kept_eq_iff, fun _ _ h => Imports.kept_congr h, Imports.kept_kept,
    fun s c t => ⟨?_, run_listing s c t⟩⟩
  have hm := mirrors_run s c t []
  exact Prod.ext hm.1 hm.2

end ShowImports

end Relocate.Command
