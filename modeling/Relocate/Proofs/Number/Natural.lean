import Mathlib.Data.List.Basic
import Relocate.Number.Natural

namespace Relocate.Natural

theorem isDigit_of_mem {n : Nat} {c : Char} (hc : c ∈ Nat.toDigits 10 n) : c.isDigit = true :=
  Nat.isDigit_of_mem_toDigits (by decide) (by decide) hc

theorem toList_toString (n : Nat) : (toString n).toList = Nat.toDigits 10 n := by
  rw [Nat.toString_eq_ofList_toDigits, String.toList_ofList]

theorem le_ofDigitChars (ds : List Char) (n : Nat) : n ≤ Nat.ofDigitChars 10 ds n := by
  rw [Nat.ofDigitChars_eq_ofDigitChars_zero]
  have hp : 0 < 10 ^ ds.length := Nat.pow_pos (by decide)
  have := Nat.le_mul_of_pos_left n hp
  omega

structure IsDecimal (s : List Char) (n : Nat) : Prop where
  nonempty : s ≠ []
  digits : ∀ c ∈ s, c.isDigit = true
  value : Nat.ofDigitChars 10 s 0 = n

/-- A number as it may be written: there may be a plus sign before its digits. -/
inductive IsNumeral : List Char → Nat → Prop
  | plain {s : List Char} {n : Nat} (h : IsDecimal s n) : IsNumeral s n
  | signed {s : List Char} {n : Nat} (h : IsDecimal s n) : IsNumeral ('+' :: s) n

theorem isDecimal_toDigits (n : Nat) : IsDecimal (Nat.toDigits 10 n) n :=
  ⟨Nat.toDigits_ne_nil, fun _ => isDigit_of_mem, Nat.ofDigitChars_ten_toDigits⟩

theorem isNumeral_signed {s : List Char} {n : Nat} : IsNumeral ('+' :: s) n ↔ IsDecimal s n := by
  constructor
  · rintro (h | h)
    · have hd := h.digits '+' List.mem_cons_self
      cases hd
    · exact h
  · exact .signed

theorem isNumeral_plain {c : Char} {s : List Char} {n : Nat} (hc : c ≠ '+') :
    IsNumeral (c :: s) n ↔ IsDecimal (c :: s) n := by
  constructor
  · intro h
    cases h with
    | plain h => exact h
    | signed h => exact absurd rfl hc
  · exact .plain

/-- Digits are read to the last one, if the number they make is within the limit. -/
theorem extend_eq_ok {limit n m : Nat} {s : List Char} (hn : n ≤ limit) : extend limit n s = .ok m ↔
    (∀ c ∈ s, c.isDigit = true) ∧ Nat.ofDigitChars 10 s n = m ∧ m ≤ limit := by
  induction s generalizing n with
  | nil =>
    rw [extend, Except.ok.injEq, Nat.ofDigitChars_nil]
    constructor
    · rintro rfl
      exact ⟨List.forall_mem_nil _, rfl, hn⟩
    · exact fun h => h.2.1
  | cons c s ih =>
    have hv : 10 * n + (c.toNat - '0'.toNat) = n * 10 + (c.toNat - 48) := by
      rw [Nat.mul_comm]
      rfl
    rw [extend, Nat.ofDigitChars_cons, hv, List.forall_mem_cons]
    cases hc : c.isDigit with
    | false => simp
    | true =>
      rw [Bool.not_true, if_neg Bool.false_ne_true]
      split
      · -- What follows makes the number no smaller.
        have hle := le_ofDigitChars s (n * 10 + (c.toNat - 48))
        refine iff_of_false nofun ?_
        rintro ⟨-, rfl, hm⟩
        omega
      · rw [ih (by omega), and_iff_right rfl]

theorem extend_zero_eq_ok {limit n : Nat} {c : Char} {s : List Char} :
    extend limit 0 (c :: s) = .ok n ↔ IsDecimal (c :: s) n ∧ n ≤ limit := by
  rw [extend_eq_ok (Nat.zero_le limit)]
  constructor
  · rintro ⟨hd, hv, hn⟩
    exact ⟨⟨List.cons_ne_nil c s, hd, hv⟩, hn⟩
  · rintro ⟨⟨-, hd, hv⟩, hn⟩
    exact ⟨hd, hv, hn⟩

theorem read_eq_ok {limit n : Nat} {s : List Char} :
    read limit s = .ok n ↔ IsNumeral s n ∧ n ≤ limit := by
  have hnil : ¬ IsDecimal [] n := fun h => h.nonempty rfl
  unfold read
  split
  · refine iff_of_false nofun ?_
    rintro ⟨⟨h⟩, -⟩
    exact hnil h
  · rw [isNumeral_signed]
    exact iff_of_false nofun fun h => hnil h.1
  · rename_i s hs
    cases s with
    | nil => exact absurd rfl hs
    | cons c s => rw [extend_zero_eq_ok, isNumeral_signed]
  · rename_i h₀ _ h₁
    cases s with
    | nil => exact absurd rfl h₀
    | cons c s => rw [extend_zero_eq_ok, isNumeral_plain fun hc => h₁ s (by rw [hc])]

theorem IsNumeral.unique {s : List Char} {n m : Nat} (hn : IsNumeral s n) (hm : IsNumeral s m) :
    n = m := by
  have hrn := read_eq_ok.mpr ⟨hn, Nat.le_max_left n m⟩
  have hrm := read_eq_ok.mpr ⟨hm, Nat.le_max_right n m⟩
  exact Except.ok.inj (hrn.symm.trans hrm)

end Relocate.Natural
