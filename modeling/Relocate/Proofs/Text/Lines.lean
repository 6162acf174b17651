import Relocate.Text.Line

namespace Relocate.Line

def IsComplete (l : Line) : Prop := ∃ s, l = s ++ [10] ∧ 10 ∉ s

theorem first_complete {l : Line} (h : l.IsComplete) (s : List UInt8) : first (l ++ s) = (l, s) := by
  obtain ⟨t, rfl, ht⟩ := h
  induction t with
  | nil => rfl
  | cons b t ih =>
    obtain ⟨hb, ht⟩ := List.ne_and_not_mem_of_not_mem_cons ht
    rw [List.cons_append, List.cons_append, first, if_neg (Ne.symm hb), ih ht]

theorem ofStream_complete {l : Line} (h : l.IsComplete) (s : List UInt8) :
    ofStream (l ++ s) = l :: ofStream s := by
  have hf := first_complete h s
  cases hs : l ++ s with
  | nil =>
    obtain ⟨t, rfl, -⟩ := h
    simp at hs
  | cons b t => rw [ofStream, ← hs, hf]

theorem first_of_not_mem {s : List UInt8} (h : 10 ∉ s) : first s = (s, []) := by
  induction s with
  | nil => rfl
  | cons b s ih =>
    obtain ⟨hb, hs⟩ := List.ne_and_not_mem_of_not_mem_cons h
    rw [first, if_neg (Ne.symm hb), ih hs]

theorem first_complete_of_mem {s : List UInt8} (h : 10 ∈ s) : IsComplete (first s).1 := by
  induction s with
  | nil => cases h
  | cons b s ih =>
    by_cases hb : b = 10
    · subst hb
      exact ⟨[], rfl, List.not_mem_nil⟩
    · rw [first, if_neg hb]
      obtain ⟨t, ht, hn⟩ := ih (List.mem_of_ne_of_mem (Ne.symm hb) h)
      refine ⟨b :: t, by rw [ht, List.cons_append], ?_⟩
      exact List.not_mem_cons_of_ne_of_not_mem (Ne.symm hb) hn

theorem ofStream_of_not_mem {s : List UInt8} (hne : s ≠ []) (h : 10 ∉ s) : ofStream s = [s] := by
  cases s with
  | nil => exact absurd rfl hne
  | cons b s => rw [ofStream, first_of_not_mem h, ofStream]

theorem flatten_ofStream (s : List UInt8) : (ofStream s).flatten = s := by
  induction s using ofStream.induct with
  | case1 => rw [ofStream, List.flatten_nil]
  | case2 b s ih => rw [ofStream, List.flatten_cons, ih, first_append]

/-- Bytes cut behind each line feed. What follows the last one is a line if it is not empty. -/
inductive Cuts : List UInt8 → List Line → Prop
  | nil : Cuts [] []
  | last {s : Line} (hne : s ≠ []) (hn : 10 ∉ s) : Cuts s [s]
  | line {l : Line} {s : List UInt8} {ls : List Line} (hl : l.IsComplete) (h : Cuts s ls) :
    Cuts (l ++ s) (l :: ls)

theorem cuts_ofStream (s : List UInt8) : Cuts s (ofStream s) := by
  induction s using ofStream.induct with
  | case1 =>
    rw [ofStream]
    exact .nil
  | case2 b s ih =>
    by_cases hb : 10 ∈ b :: s
    · have hl := Cuts.line (first_complete_of_mem hb) ih
      rwa [first_append, ← ofStream] at hl
    · have hne := List.cons_ne_nil b s
      rw [ofStream_of_not_mem hne hb]
      exact .last hne hb

theorem Cuts.eq {s : List UInt8} {ls : List Line} (h : Cuts s ls) : ofStream s = ls := by
  induction h with
  | nil => rw [ofStream]
  | last hne hn => exact ofStream_of_not_mem hne hn
  | line hl _ ih => rw [ofStream_complete hl, ih]

theorem ofStream_eq_iff {s : List UInt8} {ls : List Line} : ofStream s = ls ↔ Cuts s ls := by
  constructor
  · rintro rfl
    exact cuts_ofStream s
  · exact Cuts.eq

theorem Cuts.not_mem_dropLast {s : List UInt8} {ls : List Line} (h : Cuts s ls) :
    ∀ l ∈ ls, 10 ∉ l.dropLast := by
  induction h with
  | nil => exact List.forall_mem_nil _
  | last _ hn => exact List.forall_mem_singleton.mpr fun hm => hn (List.dropLast_subset _ hm)
  | line hl _ ih =>
    obtain ⟨t, rfl, ht⟩ := hl
    refine List.forall_mem_cons.mpr ⟨?_, ih⟩
    rwa [List.dropLast_concat]

/-- The lines of a stream: all but the last are complete. -/
def AreLines (ls : List Line) : Prop := ofStream ls.flatten = ls

theorem areLines_ofStream (s : List UInt8) : AreLines (ofStream s) := by
  rw [AreLines, flatten_ofStream]

theorem AreLines.nil : AreLines [] := by
  rw [AreLines, List.flatten_nil, ofStream]

theorem AreLines.cons {l : Line} {ls : List Line} (hl : l.IsComplete) (h : AreLines ls) :
    AreLines (l :: ls) := by
  rw [AreLines, List.flatten_cons, ofStream_complete hl, h]

theorem AreLines.of_cons {l : Line} {ls : List Line} (h : AreLines (l :: ls)) (hn : ls ≠ []) :
    l.IsComplete ∧ AreLines ls := by
  have hc := ofStream_eq_iff.mp h
  generalize hs : (l :: ls).flatten = s at hc
  cases hc with
  | last => exact absurd rfl hn
  | line hl hr =>
    rw [List.flatten_cons] at hs
    obtain rfl := List.append_cancel_left hs
    exact ⟨hl, hr.eq⟩

end Relocate.Line
