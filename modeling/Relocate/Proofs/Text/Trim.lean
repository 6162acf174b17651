import Mathlib.Data.List.DropRight
import Mathlib.Data.List.TakeWhile
import Relocate.Text.Blank

namespace Relocate.Text

section

variable {α : Type} {p : α → Bool} {front s : List α}

theorem takeWhile_append_eq (hf : ∀ c ∈ front, p c = true) (hs : ∀ c ∈ s.head?, p c = false) :
    (front ++ s).takeWhile p = front := by
  rw [List.takeWhile_append_of_pos hf]
  cases s with
  | nil => exact List.append_nil front
  | cons c s => rw [List.takeWhile_cons_of_neg (by simp [hs c rfl]), List.append_nil]

theorem dropWhile_append_eq (hf : ∀ c ∈ front, p c = true) (hs : ∀ c ∈ s.head?, p c = false) :
    (front ++ s).dropWhile p = s := by
  rw [List.dropWhile_append_of_pos hf]
  cases s with
  | nil => rfl
  | cons c s => exact List.dropWhile_cons_of_neg (by simp [hs c rfl])

end

/-- What is left of a text without the blanks at its ends. -/
structure Trims (s t : List Char) : Prop where
  parts : ∃ front back, s = front ++ (t ++ back) ∧ (∀ c ∈ front, isBlank c = true) ∧
    ∀ c ∈ back, isBlank c = true
  first : ∀ c ∈ t.head?, isBlank c = false
  last : ∀ c ∈ t.getLast?, isBlank c = false

theorem trimEnd_eq (s : List Char) : trimEnd s = s.rdropWhile isBlank := rfl

theorem trimEnd_append_eq {s back : List Char} (hb : ∀ c ∈ back, isBlank c = true)
    (hs : ∀ c ∈ s.getLast?, isBlank c = false) : trimEnd (s ++ back) = s := by
  rw [trimEnd, List.reverse_append, dropWhile_append_eq, List.reverse_reverse]
  · simpa using hb
  · simpa using hs

theorem Trims.eq {s t : List Char} (h : Trims s t) : trim s = t := by
  obtain ⟨front, back, rfl, hf, hb⟩ := h.parts
  rw [trim, trimStart, List.dropWhile_append_of_pos hf]
  cases t with
  | nil =>
    rw [List.nil_append, List.dropWhile_eq_nil_iff.mpr hb]
    rfl
  | cons c t =>
    have hc : isBlank c = false := h.first c rfl
    rw [List.cons_append, List.dropWhile_cons_of_neg (by simp [hc]), ← List.cons_append]
    exact trimEnd_append_eq hb h.last

theorem trims_trim (s : List Char) : Trims s (trim s) where
  parts := by
    refine ⟨s.takeWhile isBlank, (trimStart s).rtakeWhile isBlank, ?_, ?_, ?_⟩
    · rw [trim, trimEnd_eq, List.rdropWhile_append_rtakeWhile, trimStart,
        List.takeWhile_append_dropWhile]
    · exact fun c => List.mem_takeWhile_imp
    · exact fun c => List.mem_rtakeWhile_imp
  first := by
    intro c hc
    have hp : trim s <+: trimStart s := List.rdropWhile_prefix isBlank (trimStart s)
    obtain ⟨back, hb⟩ := hp
    have hh := List.head?_dropWhile_not isBlank s
    rw [← trimStart, ← hb, List.head?_append, Option.mem_def.mp hc] at hh
    exact Bool.eq_false_iff.mpr (by simpa using hh)
  last := by
    intro c hc
    have hn : trim s ≠ [] := by
      rintro hn
      rw [hn] at hc
      cases hc
    have hl := List.rdropWhile_last_not isBlank (trimStart s) hn
    rw [List.getLast?_eq_some_getLast hn, Option.mem_def, Option.some.injEq] at hc
    rw [← hc]
    exact Bool.eq_false_iff.mpr hl

theorem trim_eq_iff {s t : List Char} : trim s = t ↔ Trims s t := by
  constructor
  · rintro rfl
    exact trims_trim s
  · exact Trims.eq

theorem trim_eq_nil {s : List Char} : trim s = [] ↔ ∀ c ∈ s, isBlank c = true := by
  rw [trim_eq_iff]
  constructor
  · rintro ⟨⟨front, back, rfl, hf, hb⟩, -, -⟩
    simpa using List.forall_mem_append.mpr ⟨hf, hb⟩
  · intro h
    exact ⟨⟨s, [], by simp, h, List.forall_mem_nil _⟩, nofun, nofun⟩

theorem ofList_trim_eq_iff {s : List Char} {t : String} :
    String.ofList (trim s) = t ↔ Trims s t.toList := by
  rw [← trim_eq_iff, ← String.toList_inj, String.toList_ofList]

theorem trimmed_eq_iff {s t : String} : trimmed s = t ↔ Trims s.toList t.toList :=
  ofList_trim_eq_iff

theorem trimmed_eq_empty {s : String} : trimmed s = "" ↔ ∀ c ∈ s.toList, isBlank c = true := by
  rw [trimmed, ← trim_eq_nil, ← String.toList_inj, String.toList_ofList, String.toList_empty]

end Relocate.Text
