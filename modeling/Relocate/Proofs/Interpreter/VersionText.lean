import Mathlib.Data.Prod.Lex
import Relocate.Proofs.Interpreter.VersionGrammar

namespace Relocate.Interpreter.Version

open Text (Trims isBlank)

def numbers (v : Version) : ℕ ×ₗ ℕ ×ₗ ℕ :=
  toLex (v.major.toNat, toLex (v.minor.toNat, v.patch.toNat))

theorem toList_text (v : Version) : v.text.toList = Nat.toDigits 10 v.major.toNat ++
    '.' :: (Nat.toDigits 10 v.minor.toNat ++ '.' :: (Nat.toDigits 10 v.patch.toNat)) := by
  simp only [text, String.toList_append, Natural.toList_toString, List.append_assoc]
  rfl

theorem spells_text (v : Version) : Spells v.text.toList v := by
  have hp := Natural.isDecimal_toDigits v.patch.toNat
  have hlt : Nat.ofDigitChars 10 (Nat.toDigits 10 v.patch.toNat) 0 < Nat.pow 2 32 := by
    rw [hp.value]
    exact v.patch.toNat_lt
  have ht : Trails ('.' :: (Nat.toDigits 10 v.patch.toNat ++ [])) _ := .word hp.digits nofun hlt
  rw [hp.value, List.append_nil] at ht
  exact .intro v.toList_text (.plain (Natural.isDecimal_toDigits _))
    (.plain (Natural.isDecimal_toDigits _)) ht

theorem isBlank_digit {c : Char} (h : c.isDigit = true) : isBlank c = false := by
  have hc : 48 ≤ c.toNat ∧ c.toNat ≤ 57 := by
    simpa [Char.isDigit, UInt32.le_iff_toNat_le] using h
  simp only [isBlank, Bool.or_eq_false_iff, Bool.and_eq_false_iff, decide_eq_false_iff_not]
  omega

theorem isBlank_text (v : Version) : ∀ c ∈ v.text.toList, isBlank c = false := by
  have hd (n : Nat) : ∀ c ∈ Nat.toDigits 10 n, isBlank c = false :=
    fun c hc => isBlank_digit (Natural.isDigit_of_mem hc)
  have hdot : isBlank '.' = false := by decide
  rw [toList_text, List.forall_mem_append, List.forall_mem_cons, List.forall_mem_append,
    List.forall_mem_cons]
  exact ⟨hd _, hdot, hd _, hdot, hd _⟩

theorem trims_text (v : Version) {after : List Char} (ha : ∀ c ∈ after, isBlank c = true) :
    Trims (v.text.toList ++ after) v.text.toList where
  parts := ⟨[], after, rfl, List.forall_mem_nil _, ha⟩
  first c hc := v.isBlank_text c (List.mem_of_head? hc)
  last c hc := v.isBlank_text c (List.mem_of_getLast? hc)

theorem not_named_text (v : Version) (after : List Char) :
    ¬ "Python ".toList <+: v.text.toList ++ after := by
  rintro ⟨r, hr⟩
  rw [toList_text] at hr
  cases hd : Nat.toDigits 10 v.major.toNat with
  | nil => exact Nat.toDigits_ne_nil hd
  | cons c ds =>
    rw [hd] at hr
    obtain ⟨rfl, -⟩ := List.cons.inj hr
    have hp : 'P'.isDigit = true := Natural.isDigit_of_mem (by rw [hd]; exact List.mem_cons_self)
    cases hp

theorem read_text (v : Version) {after : String} (ha : ∀ c ∈ after.toList, isBlank c = true) :
    read (v.text ++ after) = .ok v ∧ read ("Python " ++ v.text ++ after) = .ok v := by
  have hbare : core (v.text ++ after) = v.text := by
    rw [core_eq_iff]
    refine .bare ?_ ?_
    · rw [String.toList_append]
      exact v.not_named_text _
    · rw [String.toList_append]
      exact v.trims_text ha
  have hnamed : core ("Python " ++ v.text ++ after) = v.text := by
    rw [core_eq_iff]
    refine .named ?_ (v.trims_text ha)
    rw [String.toList_append, String.toList_append, List.append_assoc]
  rw [read_eq_ok, read_eq_ok, hbare, hnamed]
  exact ⟨v.spells_text, v.spells_text⟩

theorem read_text_alone (v : Version) : read v.text = .ok v := by
  have h := (@read_text v "" nofun).1
  rwa [String.append_empty] at h

theorem text_injective : Function.Injective text := by
  intro v w h
  have hv := v.read_text_alone
  rw [h, w.read_text_alone] at hv
  exact (Except.ok.inj hv).symm

theorem numbers_injective : Function.Injective numbers := by
  rintro ⟨a, b, c⟩ ⟨a', b', c'⟩ h
  obtain ⟨ha, hr⟩ := Prod.mk.inj (toLex.injective h)
  obtain ⟨hb, hc⟩ := Prod.mk.inj (toLex.injective hr)
  obtain rfl : a = a' := UInt32.toNat_inj.mp ha
  obtain rfl : b = b' := UInt32.toNat_inj.mp hb
  obtain rfl : c = c' := UInt32.toNat_inj.mp hc
  rfl

theorem order_eq (v w : Version) : v.order w = compare v.numbers w.numbers := by
  rw [order, compare_toNat, compare_toNat, compare_toNat, Ordering.then_assoc]
  rfl

/-- What is written of a version is read as that version, and its name in front or blanks after it make
no difference. Versions are ordered by their numbers, not by their texts. -/
theorem text_reread :
    (∀ (v : Version) (after : String), (∀ c ∈ after.toList, isBlank c = true) →
      read (v.text ++ after) = .ok v ∧ read ("Python " ++ v.text ++ after) = .ok v) ∧
    (∀ s, (read s).bind (fun v => read v.text) = read s) ∧
    Function.Injective text ∧
    ∀ v w : Version, (v.order w = .lt ↔ v.numbers < w.numbers) ∧ (v.order w = .eq ↔ v = w) ∧
      (v.order w = .gt ↔ w.numbers < v.numbers) := by
  refine ⟨fun v after ha => v.read_text ha, fun s => ?_, text_injective, fun v w => ?_⟩
  · cases read s with
    | error e => rfl
    | ok v => rw [Except.bind, read_text_alone]
  · rw [order_eq, compare_lt_iff_lt, compare_gt_iff_gt, compare_eq_iff_eq, numbers_injective.eq_iff]
    exact ⟨.rfl, .rfl, .rfl⟩

example : (read "3.10").bind (fun v => (read "3.9.18").map v.order) = .ok .gt := by rfl

end Relocate.Interpreter.Version
