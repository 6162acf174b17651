import Mathlib.Data.List.Basic
import Mathlib.Data.List.Nodup
import Relocate.Imports

namespace Relocate.Imports

/-- What is offered of a list of candidates: those that begin with none of the prefixes, each where it
occurs first. -/
structure Keeps (prefixes candidates modules : List String) : Prop where
  mem_iff : ∀ m, m ∈ modules ↔ m ∈ candidates ∧ ∀ p ∈ prefixes, ¬ p.toList <+: m.toList
  sublist : modules.Sublist candidates
  nodup : modules.Nodup
  ordered : modules.Pairwise fun m n => candidates.idxOf m < candidates.idxOf n

theorem mem_firstOccurrences {seen ms : List String} {m : String} :
    m ∈ firstOccurrences seen ms ↔ m ∈ ms ∧ m ∉ seen := by
  induction ms generalizing seen with
  | nil => simp [firstOccurrences]
  | cons n ms ih =>
    rw [firstOccurrences]
    split
    · rename_i hn
      rw [ih, List.mem_cons]
      constructor
      · exact fun h => ⟨.inr h.1, h.2⟩
      · rintro ⟨rfl | hm, hs⟩
        · exact absurd hn hs
        · exact ⟨hm, hs⟩
    · rename_i hn
      rw [List.mem_cons, ih, List.mem_cons, List.mem_cons, not_or]
      constructor
      · rintro (rfl | ⟨hm, -, hs⟩)
        · exact ⟨.inl rfl, hn⟩
        · exact ⟨.inr hm, hs⟩
      · rintro ⟨rfl | hm, hs⟩
        · exact .inl rfl
        · by_cases he : m = n
          · exact .inl he
          · exact .inr ⟨hm, he, hs⟩

theorem firstOccurrences_sublist (seen ms : List String) :
    (firstOccurrences seen ms).Sublist ms := by
  induction ms generalizing seen with
  | nil => exact .slnil
  | cons m ms ih =>
    rw [firstOccurrences]
    split
    · exact .cons m (ih seen)
    · exact .cons_cons m (ih (m :: seen))

theorem firstOccurrences_ordered (seen ms : List String) :
    (firstOccurrences seen ms).Pairwise fun m n => ms.idxOf m < ms.idxOf n := by
  induction ms generalizing seen with
  | nil => exact .nil
  | cons m ms ih =>
    -- One more candidate in front moves every other one by the same.
    have hrest (seen' : List String) (hm : m ∈ seen') : (firstOccurrences seen' ms).Pairwise
        fun a b => (m :: ms).idxOf a < (m :: ms).idxOf b := by
      have hne : ∀ a ∈ firstOccurrences seen' ms, m ≠ a := by
        rintro a ha rfl
        exact (mem_firstOccurrences.mp ha).2 hm
      refine (ih seen').imp_of_mem fun ha hb h => ?_
      rw [List.idxOf_cons_ne ms (hne _ ha), List.idxOf_cons_ne ms (hne _ hb)]
      exact Nat.succ_lt_succ h
    rw [firstOccurrences]
    split
    · exact hrest seen ‹_›
    · refine .cons (fun a ha => ?_) (hrest (m :: seen) List.mem_cons_self)
      have hne : m ≠ a := by
        rintro rfl
        exact (mem_firstOccurrences.mp ha).2 List.mem_cons_self
      rw [List.idxOf_cons_self, List.idxOf_cons_ne ms hne]
      exact Nat.succ_pos _

theorem firstOccurrences_congr {seen seen' ms : List String}
    (h : ∀ m ∈ ms, m ∈ seen ↔ m ∈ seen') : firstOccurrences seen ms = firstOccurrences seen' ms := by
  induction ms generalizing seen seen' with
  | nil => rfl
  | cons m ms ih =>
    obtain ⟨hm, h⟩ := List.forall_mem_cons.mp h
    have hcons : ∀ n ∈ ms, n ∈ m :: seen ↔ n ∈ m :: seen' := by
      intro n hn
      rw [List.mem_cons, List.mem_cons, h n hn]
    rw [firstOccurrences, firstOccurrences, ih h, ih hcons]
    exact if_congr hm rfl rfl

theorem firstOccurrences_cons {m : String} {ms : List String} (h : m ∉ ms) (seen : List String) :
    firstOccurrences (m :: seen) ms = firstOccurrences seen ms := by
  refine firstOccurrences_congr fun n hn => ?_
  rw [List.mem_cons, or_iff_right]
  rintro rfl
  exact h hn

theorem filter_firstOccurrences (f : String → Bool) (seen ms : List String) :
    (firstOccurrences seen ms).filter f = firstOccurrences seen (ms.filter f) := by
  induction ms generalizing seen with
  | nil => rfl
  | cons m ms ih =>
    rw [firstOccurrences]
    cases hf : f m with
    | true =>
      rw [List.filter_cons_of_pos hf, firstOccurrences]
      split
      · exact ih seen
      · rw [List.filter_cons_of_pos hf, ih]
    | false =>
      have hn : ¬ f m = true := Bool.eq_false_iff.mp hf
      rw [List.filter_cons_of_neg hn]
      split
      · exact ih seen
      · -- It does not come again among what passes the filter.
        rw [List.filter_cons_of_neg hn, ih]
        exact firstOccurrences_cons (fun hm => hn (List.mem_filter.mp hm).2) seen

theorem firstOccurrences_of_nodup {ms : List String} (h : ms.Nodup) :
    firstOccurrences [] ms = ms := by
  induction ms with
  | nil => rfl
  | cons m ms ih =>
    obtain ⟨hm, h⟩ := List.nodup_cons.mp h
    rw [firstOccurrences, if_neg List.not_mem_nil, firstOccurrences_cons hm, ih h]

theorem isVendored_eq_false {prefixes : List String} {m : String} :
    isVendored prefixes m = false ↔ ∀ p ∈ prefixes, ¬ p.toList <+: m.toList := by
  simp [isVendored]

theorem kept_eq (prefixes candidates : List String) : kept prefixes candidates =
    (firstOccurrences [] candidates).filter fun m => !isVendored prefixes m :=
  (filter_firstOccurrences _ _ _).symm

theorem kept_keeps (prefixes candidates : List String) :
    Keeps prefixes candidates (kept prefixes candidates) := by
  have hsub : (kept prefixes candidates).Sublist (firstOccurrences [] candidates) := by
    rw [kept_eq]
    exact List.filter_sublist
  have hord := (firstOccurrences_ordered [] candidates).sublist hsub
  refine ⟨fun m => ?_, hsub.trans (firstOccurrences_sublist [] candidates), ?_, hord⟩
  · rw [kept_eq, List.mem_filter, mem_firstOccurrences, Bool.not_eq_true', isVendored_eq_false]
    simp
  · exact hord.imp fun h => by
      rintro rfl
      exact absurd h (Nat.lt_irrefl _)

theorem Keeps.unique {prefixes candidates ms ms' : List String} (h : Keeps prefixes candidates ms)
    (h' : Keeps prefixes candidates ms') : ms = ms' := by
  have hp : ms.Perm ms' := by
    rw [List.perm_ext_iff_of_nodup h.nodup h'.nodup]
    exact fun m => (h.mem_iff m).trans (h'.mem_iff m).symm
  exact hp.eq_of_pairwise (fun _ _ _ _ hlt hgt => absurd hlt (Nat.lt_asymm hgt)) h.ordered h'.ordered

theorem kept_eq_iff {prefixes candidates ms : List String} :
    kept prefixes candidates = ms ↔ Keeps prefixes candidates ms := by
  constructor
  · rintro rfl
    exact kept_keeps prefixes candidates
  · exact (kept_keeps prefixes candidates).unique

/-- It does not matter how the prefixes are ordered, nor how often one is given. -/
theorem kept_congr {prefixes prefixes' : List String} (h : ∀ p, p ∈ prefixes ↔ p ∈ prefixes')
    (candidates : List String) : kept prefixes candidates = kept prefixes' candidates := by
  obtain ⟨hm, hs, hn, ho⟩ := kept_keeps prefixes' candidates
  refine kept_eq_iff.mpr ⟨fun m => ?_, hs, hn, ho⟩
  simp only [hm, h]

theorem kept_kept (prefixes prefixes' candidates : List String) :
    kept prefixes' (kept prefixes candidates) = kept (prefixes ++ prefixes') candidates := by
  have hn := (kept_keeps prefixes candidates).nodup
  rw [kept_eq prefixes', firstOccurrences_of_nodup hn, kept_eq, kept_eq, List.filter_filter]
  simp only [isVendored, List.any_append, Bool.not_or, Bool.and_comm]

end Relocate.Imports
