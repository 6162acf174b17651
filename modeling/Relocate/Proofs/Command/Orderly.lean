import Relocate.Proofs.Command.Going

namespace Relocate.Command

open Stage

inductive Phase
  | begin
  | compute
  | apply
  deriving DecidableEq

def phase? : Deed → Option Phase
  | .begin .. => some .begin
  | .compute .. => some .compute
  | .apply .. => some .apply
  | _ => none

def Chosen (k : Rules) (ds : List Deed) (path : String) : Prop :=
  k.given = some path ∨ k.given = none ∧ .ask k.question (.ok path) ∈ ds

/-- What has to be known before changes are made: where they come from, and that the rules are
kept. -/
structure Warrant (k : Rules) (ds : List Deed) (plan : MovePlan) (target : Place)
    (changes : ChangeSet) : Prop where
  begun : ∃ place index, k.source = .ok (place, index) ∧ .begin place index (.ok plan) ∈ ds
  permitted : k.permit plan = .ok ()
  aimed : ∃ path, Chosen k ds path ∧ k.aim path = .ok target
  confirmed : k.doubt ≠ none → .confirm target (.ok true) ∈ ds
  computed : .compute plan target (.ok changes) ∈ ds

inductive Objection (k : Rules) (ds : List Deed) : Failure → Prop
  | source {e : Failure} (h : k.source = .error e) : Objection k ds e
  | plan {place : Place} {index : Option Nat} {plan : MovePlan} {e : Failure}
    (h : .begin place index (.ok plan) ∈ ds) (hp : k.permit plan = .error e) : Objection k ds e
  | destination {place : Place} {index : Option Nat} {plan : MovePlan} {path : String}
    {e : Failure} (h : .begin place index (.ok plan) ∈ ds) (hp : k.permit plan = .ok ())
    (hc : Chosen k ds path) (ha : k.aim path = .error e) : Objection k ds e
  | doubt {target : Place} {e : Failure} (h : .confirm target (.ok false) ∈ ds)
    (hd : k.doubt = some e) : Objection k ds e

theorem Chosen.append {k : Rules} {ds : List Deed} {path : String} (h : Chosen k ds path)
    (l : List Deed) : Chosen k (ds ++ l) path :=
  h.imp_right fun ⟨hg, hm⟩ => ⟨hg, List.mem_append_left l hm⟩

theorem Chosen.of_append {k : Rules} {ds l : List Deed} {path : String}
    (h : Chosen k (ds ++ l) path) (ha : ∀ path, .ask k.question (.ok path) ∉ l) :
    Chosen k ds path := by
  obtain hg | ⟨hg, hm⟩ := h
  · exact .inl hg
  · exact .inr ⟨hg, (List.mem_append.mp hm).resolve_right (ha path)⟩

/-- What is found wrong after more was done was wrong before, unless the plan, the answer or the
doubt is new. -/
theorem Objection.of_append {k : Rules} {ds l : List Deed} {e : Failure}
    (h : Objection k (ds ++ l) e) (hb : ∀ place index plan, .begin place index (.ok plan) ∉ l)
    (ha : ∀ path, .ask k.question (.ok path) ∉ l) :
    Objection k ds e ∨ (∃ target, .confirm target (.ok false) ∈ l) ∧ k.doubt = some e := by
  cases h with
  | source h => exact .inl (.source h)
  | plan h hp => exact .inl (.plan ((List.mem_append.mp h).resolve_right (hb _ _ _)) hp)
  | destination h hp hc hf =>
    exact .inl (.destination ((List.mem_append.mp h).resolve_right (hb _ _ _)) hp (hc.of_append ha) hf)
  | @doubt target _ h hd =>
    obtain h | h := List.mem_append.mp h
    · exact .inl (.doubt h hd)
    · exact .inr ⟨⟨target, h⟩, hd⟩

namespace Stage

def plan? : Stage → Option MovePlan
  | .fresh | .failed _ => none
  | .begun plan | .named plan _ | .aimed plan .. | .settled plan .. | .computed plan ..
  | .applied plan .. => some plan

def path? : Stage → Option String
  | .fresh | .begun _ | .failed _ => none
  | .named _ path | .aimed _ path _ | .settled _ path _ | .computed _ path ..
  | .applied _ path .. => some path

def phases : Stage → List Phase
  | .fresh | .failed _ => []
  | .begun _ | .named .. | .aimed .. | .settled .. => [.begin]
  | .computed .. => [.begin, .compute]
  | .applied .. => [.begin, .compute, .apply]

theorem phases_prefix (st : Stage) : st.phases <+: [.begin, .compute, .apply] := by
  cases st <;> simp [phases]

end Stage

/-- What a command at a stage is about to find wrong. -/
def Pending (k : Rules) : Stage → Failure → Prop
  | .fresh, e => k.source = .error e
  | .begun plan, e => k.permit plan = .error e ∨
      k.permit plan = .ok () ∧ ∃ path, k.given = some path ∧ k.aim path = .error e
  | .named _ path, e => k.aim path = .error e
  | _, _ => False

namespace Going

variable {k : Rules} {ds : List Deed} {st : Stage}

theorem mem_iff {d : Deed} (hd : isCall d = true) : d ∈ ds ↔ d ∈ ds.filter isCall := by
  simp [hd]

theorem given_of_path {path : String} (h : Going k ds st) (hp : st.path? = some path) :
    k.given = none ∨ k.given = some path := by
  have hk := h.kept
  cases st <;> simp only [path?, reduceCtorEq, Option.some.injEq] at hp <;> subst hp
  · exact hk.2
  · exact hk.2.1
  · exact hk.2.1
  · exact hk.2.1
  · exact hk.2.1

theorem path_chosen {path : String} (h : Going k ds st) (hp : st.path? = some path) :
    Chosen k ds path := by
  obtain hg | hg := h.given_of_path hp
  · obtain ⟨_, _, -, hc⟩ := h.calls
    refine .inr ⟨hg, ?_⟩
    rw [mem_iff rfl, hc]
    cases st <;> simp only [path?, reduceCtorEq, Option.some.injEq] at hp <;> subst hp <;>
      simp [callsTo, asked, hg]
  · exact .inl hg

theorem warrant {plan : MovePlan} {path : String} {target : Place} {changes : ChangeSet}
    (h : Going k ds (.computed plan path target changes)) : Warrant k ds plan target changes := by
  obtain ⟨place, index, hs, hc⟩ := h.calls
  obtain ⟨hp, -, ha⟩ := h.kept
  refine ⟨⟨place, index, hs.resolve_left nofun, ?_⟩, hp, ⟨path, h.path_chosen rfl, ha⟩, ?_, ?_⟩
  · rw [mem_iff rfl, hc]
    simp [callsTo]
  · intro hd
    rw [mem_iff rfl, hc]
    simp [callsTo, confirmed, hd]
  · rw [mem_iff rfl, hc]
    simp [callsTo]

theorem begin_mem {place : Place} {index : Option Nat} {plan : MovePlan} (h : Going k ds st)
    (hb : .begin place index (.ok plan) ∈ ds) : st.plan? = some plan := by
  obtain ⟨_, _, -, hc⟩ := h.calls
  rw [mem_iff rfl, hc] at hb
  cases st <;> simp [callsTo, asked, confirmed] at hb <;> simp [plan?, hb]

theorem confirm_mem {target : Place} {b : Bool} (h : Going k ds st)
    (hb : .confirm target (.ok b) ∈ ds) : b = true := by
  obtain ⟨_, _, -, hc⟩ := h.calls
  rw [mem_iff rfl, hc] at hb
  cases st <;> simp [callsTo, asked, confirmed] at hb <;> exact hb.2.2

theorem ask_mem {path : String} (h : Going k ds st) (ha : .ask k.question (.ok path) ∈ ds) :
    st.path? = some path := by
  obtain ⟨_, _, -, hc⟩ := h.calls
  rw [mem_iff rfl, hc] at ha
  cases st <;> simp [callsTo, asked, confirmed] at ha <;> simp [path?, ha]

theorem given_eq {path path' : String} (h : Going k ds st) (hg : k.given = some path)
    (hp : st.path? = some path') : path = path' := by
  simpa [hg] using h.given_of_path hp

theorem chosen {path path' : String} (h : Going k ds st) (hc : Chosen k ds path)
    (hp : st.path? = some path') : path = path' := by
  obtain hg | ⟨-, ha⟩ := hc
  · exact h.given_eq hg hp
  · exact Option.some.inj ((h.ask_mem ha).symm.trans hp)

theorem objection {e : Failure} (h : Going k ds st) (ho : Objection k ds e) :
    Pending k st e := by
  have hk := h.kept
  cases ho with
  | source ho =>
    obtain ⟨place, index, rfl | hs, -⟩ := h.calls
    · exact ho
    · rw [hs] at ho
      cases ho
  | plan hb hp =>
    have hb := h.begin_mem hb
    cases st with
    | fresh => cases hb
    | failed _ => cases hb
    | begun plan =>
      cases hb
      exact .inl hp
    | _ =>
      cases hb
      rw [hk.1] at hp
      cases hp
  | @destination _ _ _ path _ hb hp hc ha =>
    have hb := h.begin_mem hb
    cases st with
    | fresh => cases hb
    | failed _ => cases hb
    | begun plan =>
      cases hb
      obtain hg | ⟨-, hm⟩ := hc
      · exact .inr ⟨hp, path, hg, ha⟩
      · cases h.ask_mem hm
    | named plan path' =>
      obtain rfl := h.chosen hc rfl
      exact ha
    | _ =>
      obtain rfl := h.chosen hc rfl
      rw [hk.2.2] at ha
      cases ha
  | doubt hb hd => cases h.confirm_mem hb

theorem phases (h : Going k ds st) : ds.filterMap phase? = st.phases := by
  obtain ⟨_, _, -, hc⟩ := h.calls
  have hq (d : Deed) (hd : isCall d = false) : phase? d = none := by
    cases d <;> first | rfl | cases hd
  have ha (path : String) : (asked k path).filterMap phase? = [] := by
    unfold asked
    split <;> rfl
  have hd (target : Place) : (confirmed k target).filterMap phase? = [] := by
    unfold confirmed
    split <;> rfl
  rw [filterMap_calls phase? hq, hc]
  cases st <;> simp [callsTo, Stage.phases, ha, hd, phase?]

end Going

theorem Step.phases {k : Rules} {st st' : Stage} {l : List Deed} (h : Step k st l st') :
    st.phases ++ l.filterMap phase? <+: [.begin, .compute, .apply] := by
  cases h with
  | log _ entry r => simpa [phase?, List.filterMap_cons] using st.phases_prefix
  | write _ text r => simpa [phase?, List.filterMap_cons] using st.phases_prefix
  | _ => simp [Stage.phases, phase?, List.filterMap_cons]

theorem failed_of_after {ε α : Type} {f : ε → Failure} {next : α → Stage} {r : Except ε α}
    {e : Failure} (h : Deed.errorOf f r = some e) : after f next r = .failed e := by
  cases r with
  | ok a => cases h
  | error e' => exact congrArg Stage.failed (Option.some.inj h)

theorem Step.failure {k : Rules} {st st' : Stage} {d : Deed} {e : Failure}
    (h : Step k st [d] st') (hd : d.failure? = some e) : st' = .failed e := by
  cases h <;> exact failed_of_after hd

theorem error_of_after {ε α : Type} {f : ε → Failure} {next : α → Stage} {r : Except ε α}
    {e : Failure} (h : after f next r = .failed e) (hn : ∀ a, next a ≠ .failed e) :
    Deed.errorOf f r = some e := by
  cases r with
  | ok a => exact absurd h (hn a)
  | error e' => exact congrArg some (Stage.failed.inj h)

theorem Going.objects {k : Rules} {ds : List Deed} {st : Stage} {e : Failure} (h : Going k ds st)
    (ho : Objection k ds e) (hu : ∀ e', Pending k st e' → e' = e) :
    (∀ d ∈ ([] : List Deed), d.failure? = none) ∧ Objection k (ds ++ []) e ∧
      ∀ e', Objection k (ds ++ []) e' → e' = e := by
  rw [List.append_nil]
  exact ⟨List.forall_mem_nil _, ho, fun e' ho' => hu e' (h.objection ho')⟩

theorem Going.reason {k : Rules} {ds l : List Deed} {st st' : Stage} {e : Failure}
    (h : Going k ds st) (hs : Step k st l st') (he : st' = .failed e) :
    (∃ d, l = [d] ∧ d.failure? = some e) ∨
      (∀ d ∈ l, d.failure? = none) ∧ Objection k (ds ++ l) e ∧
        ∀ e', Objection k (ds ++ l) e' → e' = e := by
  have hk := h.kept
  cases hs with
  | log hst entry r =>
    refine .inl ⟨_, rfl, error_of_after he fun _ hf => ?_⟩
    rw [hf] at hst
    cases hst
  | write hst text r =>
    refine .inl ⟨_, rfl, error_of_after he fun _ hf => ?_⟩
    rw [hf] at hst
    cases hst
  | locate hs =>
    cases he
    refine .inr (h.objects (.source hs) fun e' hp => ?_)
    exact Except.error.inj (hp.symm.trans hs)
  | begin hs r => exact .inl ⟨_, rfl, error_of_after he (by simp)⟩
  | @forbid plan _ hp =>
    cases he
    obtain ⟨place, index, -, hc⟩ := h.calls
    have hb : .begin place index (.ok plan) ∈ ds := by
      rw [mem_iff rfl, hc]
      exact List.mem_singleton_self _
    refine .inr (h.objects (.plan hb hp) fun e' hp' => ?_)
    obtain hp' | ⟨hp', -⟩ := hp'
    · exact Except.error.inj (hp'.symm.trans hp)
    · rw [hp] at hp'
      cases hp'
  | given hp hg => cases he
  | ask hp hg r => exact .inl ⟨_, rfl, error_of_after he (by simp)⟩
  | aim plan path =>
    cases ha : k.aim path with
    | ok target =>
      rw [ha] at he
      cases he
    | error e' =>
      rw [ha] at he
      cases he
      obtain ⟨place, index, -, hc⟩ := h.calls
      have hb : .begin place index (.ok plan) ∈ ds := by
        rw [mem_iff rfl, hc]
        exact List.mem_cons_self
      refine .inr (h.objects (.destination hb hk.1 (h.path_chosen rfl) ha) fun e' hp => ?_)
      exact Except.error.inj (hp.symm.trans ha)
  | trust plan path target hd => cases he
  | @confirm plan path target e₀ hd r =>
    cases r with
    | error e' => exact .inl ⟨_, rfl, congrArg some (Stage.failed.inj he)⟩
    | ok b =>
      cases b with
      | true => cases he
      | false =>
        cases he
        have hm : .confirm target (.ok false) ∈ ds ++ [.confirm target (.ok false)] :=
          List.mem_append_right _ (List.mem_singleton_self _)
        refine .inr ⟨by simp [Deed.failure?, Deed.errorOf], .doubt hm hd, fun e' ho => ?_⟩
        obtain ho | ⟨-, hd'⟩ := ho.of_append (by simp) (by simp)
        · cases h.objection ho
        · exact Option.some.inj (hd'.symm.trans hd)
  | compute plan path target r => exact .inl ⟨_, rfl, error_of_after he (by simp)⟩
  | apply plan path target changes r => exact .inl ⟨_, rfl, error_of_after he (by simp)⟩
  | tell plan path target changes text left r => exact .inl ⟨_, rfl, error_of_after he (by simp)⟩

theorem Course.told {k : Rules} {plan : MovePlan} {path : String} {target : Place}
    {changes : ChangeSet} {left : List String} {ds : List Deed} {st : Stage}
    (h : Course k (.applied plan path target changes left) ds st) :
    (∀ d ∈ ds, ∃ text r, d = .write text r ∧ text ∈ left) ∧
      ((∃ left', st = .applied plan path target changes left' ∧ left' ⊆ left) ∨
        ∃ text cause, .write text (.error cause) ∈ ds ∧ text ∈ left ∧ st = .failed (.io cause)) := by
  induction h with
  | start => exact ⟨List.forall_mem_nil _, .inl ⟨left, rfl, List.Subset.refl left⟩⟩
  | step h hs ih =>
    obtain ⟨hw, ⟨left', rfl, hl⟩ | ⟨_, _, -, -, rfl⟩⟩ := ih
    · cases hs with
      | log he => cases he
      | write he => cases he
      | tell _ _ _ _ text left' r =>
        have ht : text ∈ left := hl List.mem_cons_self
        refine ⟨?_, ?_⟩
        · intro d hd
          obtain hd | hd := List.mem_append.mp hd
          · exact hw d hd
          · exact ⟨text, r, List.mem_singleton.mp hd, ht⟩
        · cases r with
          | ok u => exact .inl ⟨left', rfl, fun x hx => hl (List.mem_cons_of_mem _ hx)⟩
          | error cause => exact .inr ⟨text, cause, by simp, ht, rfl⟩
    · cases hs.not_failed

/-- How a moving command goes about it: in the order of the phases, and with changes made only with
a warrant. It ends with the first thing that goes wrong, and says so. -/
structure Orderly (k : Rules) (deeds : List Deed) (result : Except Failure Unit) : Prop where
  order : deeds.filterMap phase? <+: [.begin, .compute, .apply]
  warranted : ∀ before changes r after, deeds = before ++ .apply changes r :: after →
    ∃ plan target, Warrant k before plan target changes
  /-- Nothing follows a deed that fails. -/
  stops : ∀ before d after e, deeds = before ++ d :: after → d.failure? = some e →
    after = [] ∧ result = .error e
  failure : ∀ e, result = .error e ↔ (∃ d ∈ deeds, d.failure? = some e) ∨
    (∀ d ∈ deeds, d.failure? = none) ∧ Objection k deeds e
  /-- Nothing is changed if a rule is not kept. -/
  refused : ∀ e, Objection k deeds e → ∀ changes r, .apply changes r ∉ deeds
  /-- Nothing is changed if another call fails. -/
  spared : ∀ d ∈ deeds, isCall d = true → d.failure? ≠ none →
    (∃ changes r, d = .apply changes r) ∨ ∀ changes r, .apply changes r ∉ deeds
  done : result = .ok () → ∃ changes, .apply changes (.ok ()) ∈ deeds
  /-- What can still go wrong with the changes: they cannot be made, or not be reported. -/
  late : ∀ changes r e, .apply changes r ∈ deeds → result = .error e →
    r = .error e ∨ r = .ok () ∧ ∃ plan target text cause, .compute plan target (.ok changes) ∈ deeds ∧
      text ∈ k.final plan target ∧ .write text (.error cause) ∈ deeds ∧ e = .io cause

section

variable {k : Rules} {ds : List Deed} {st : Stage}

theorem Course.around {before after : List Deed} {changes : ChangeSet} {r : Except Failure Unit}
    (h : Course k .fresh ds st) (hd : ds = before ++ .apply changes r :: after) :
    ∃ plan path target, Going k before (.computed plan path target changes) ∧
      (∀ d ∈ after, ∃ text r, d = .write text r ∧ text ∈ k.final plan target) ∧
      ((∃ e, r = .error e ∧ st = .failed e) ∨ r = .ok () ∧ ∀ e, st = .failed e →
        ∃ text cause, .write text (.error cause) ∈ after ∧ text ∈ k.final plan target ∧
          e = .io cause) := by
  obtain ⟨st₁, st₂, hb, hs, ha⟩ := h.split hd
  cases hs with
  | apply plan path target _ r =>
    refine ⟨plan, path, target, hb.going rfl, ?_⟩
    cases r with
    | ok u =>
      obtain ⟨hw, hst⟩ := ha.told
      refine ⟨hw, .inr ⟨rfl, fun e he => ?_⟩⟩
      obtain ⟨_, rfl, -⟩ | ⟨text, cause, hm, ht, rfl⟩ := hst
      · cases he
      · exact ⟨text, cause, hm, ht, (Stage.failed.inj he).symm⟩
    | error e =>
      obtain ⟨rfl, rfl⟩ := ha.of_failed rfl
      exact ⟨List.forall_mem_nil _, .inl ⟨e, rfl, rfl⟩⟩

theorem Course.order (h : Course k .fresh ds st) :
    ds.filterMap phase? <+: [.begin, .compute, .apply] := by
  cases h with
  | start => exact List.nil_prefix
  | step h hs =>
    rw [List.filterMap_append, (h.going hs.not_failed).phases]
    exact hs.phases

theorem Course.stops {before after : List Deed} {d : Deed} {e : Failure}
    (h : Course k .fresh ds st) (hd : ds = before ++ d :: after) (he : d.failure? = some e) :
    after = [] ∧ st = .failed e := by
  obtain ⟨st₁, st₂, -, hs, ha⟩ := h.split hd
  have hst : st₂ = .failed e := hs.failure he
  subst hst
  exact ha.of_failed rfl

theorem Course.refused {e : Failure} (h : Course k .fresh ds st) (ho : Objection k ds e)
    (changes : ChangeSet) (r : Except Failure Unit) : .apply changes r ∉ ds := by
  intro hm
  obtain ⟨before, after, hd⟩ := List.append_of_mem hm
  obtain ⟨plan, path, target, hg, hw, -⟩ := h.around hd
  have hl : ∀ d ∈ .apply changes r :: after, d = .apply changes r ∨ ∃ text r, d = .write text r := by
    intro d hd
    obtain hd | hd := List.mem_cons.mp hd
    · exact .inl hd
    · obtain ⟨text, r, hd, -⟩ := hw d hd
      exact .inr ⟨text, r, hd⟩
  rw [hd] at ho
  obtain ho | ⟨⟨place, hm⟩, -⟩ := ho.of_append (fun _ _ _ hm => by simpa using hl _ hm)
    (fun _ hm => by simpa using hl _ hm)
  · exact hg.objection ho
  · simpa using hl _ hm

theorem Course.spared {d : Deed} (h : Course k .fresh ds st) (hd : d ∈ ds) (hc : isCall d = true)
    (hf : d.failure? ≠ none) :
    (∃ changes r, d = .apply changes r) ∨ ∀ changes r, .apply changes r ∉ ds := by
  by_cases hn : ∃ changes r, d = .apply changes r
  · exact .inl hn
  refine .inr fun changes r hm => ?_
  obtain ⟨before, after, rfl⟩ := List.append_of_mem hm
  obtain ⟨plan, path, target, hg, hw, -⟩ := h.around rfl
  obtain hd | hd := List.mem_append.mp hd
  · exact hf (hg.calm d hd)
  · obtain rfl | hd := List.mem_cons.mp hd
    · exact hn ⟨changes, r, rfl⟩
    · obtain ⟨text, r, rfl, -⟩ := hw d hd
      cases hc

theorem Course.failure {e : Failure} (h : Course k .fresh ds st) (hst : st.isEarly = false) :
    st = .failed e ↔ (∃ d ∈ ds, d.failure? = some e) ∨
      (∀ d ∈ ds, d.failure? = none) ∧ Objection k ds e := by
  constructor
  · rintro rfl
    obtain ⟨ds', l, st, rfl, hg, hs⟩ := h.last
    obtain ⟨d, rfl, hd⟩ | ⟨hl, ho, -⟩ := hg.reason hs rfl
    · exact .inl ⟨d, by simp, hd⟩
    · refine .inr ⟨fun d hd => ?_, ho⟩
      exact (List.mem_append.mp hd).elim (hg.calm d) (hl d)
  · rintro (⟨d, hd, he⟩ | ⟨hd, ho⟩)
    · obtain ⟨before, after, hds⟩ := List.append_of_mem hd
      exact (h.stops hds he).2
    · cases st with
      | failed e' =>
        obtain ⟨ds', l, st, rfl, hg, hs⟩ := h.last
        obtain ⟨d, rfl, hf⟩ | ⟨-, -, hu⟩ := hg.reason hs rfl
        · rw [hd d (by simp)] at hf
          cases hf
        · rw [hu e ho]
      | applied => exact ((h.going rfl).objection ho).elim
      | _ => cases hst

theorem Course.orderly {result : Except Failure Unit} (h : Course k .fresh ds st)
    (he : Ends (fun _ st => ∃ plan path target changes, st = .applied plan path target changes [])
      result st) : Orderly k ds result := by
  have hst : st.isEarly = false ∧ ∀ e, result = .error e ↔ st = .failed e := by
    cases result with
    | ok u =>
      obtain ⟨plan, path, target, changes, rfl⟩ := he
      exact ⟨rfl, by simp⟩
    | error e =>
      obtain rfl : st = .failed e := he
      exact ⟨rfl, by simp⟩
  refine ⟨h.order, ?_, ?_, fun e => ?_, fun e => h.refused, fun d => h.spared, ?_, ?_⟩
  · intro before changes r after hd
    obtain ⟨plan, path, target, hg, -⟩ := h.around hd
    exact ⟨plan, target, hg.warrant⟩
  · intro before d after e hd hf
    rw [hst.2]
    exact h.stops hd hf
  · rw [hst.2]
    exact h.failure hst.1
  · rintro rfl
    obtain ⟨plan, path, target, changes, rfl⟩ := he
    obtain ⟨place, index, -, hc⟩ := (h.going rfl).calls
    refine ⟨changes, (Going.mem_iff rfl).mpr ?_⟩
    rw [hc]
    simp [callsTo]
  · intro changes r e hm hr
    obtain ⟨before, after, rfl⟩ := List.append_of_mem hm
    obtain ⟨plan, path, target, hg, -, ⟨e', rfl, hf⟩ | ⟨rfl, hf⟩⟩ := h.around rfl
    · rw [hst.2, hf] at hr
      exact .inl (congrArg Except.error (Stage.failed.inj hr))
    · obtain ⟨text, cause, hw, ht, rfl⟩ := hf e ((hst.2 e).mp hr)
      refine .inr ⟨rfl, plan, target, text, cause, ?_, ht, ?_, rfl⟩
      · exact List.mem_append_left _ hg.warrant.computed
      · exact List.mem_append_right _ (List.mem_cons_of_mem _ hw)

end

end Relocate.Command
