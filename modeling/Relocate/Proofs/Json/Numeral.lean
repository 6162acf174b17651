import Relocate.Json.Numeral
import Relocate.Proofs.Number.Natural
import Relocate.Proofs.Text.Trim

namespace Relocate.Json

/-- A whole number of 64 bits, with or without a sign. -/
def IsWord (n : Int) : Prop := -(Nat.pow 2 63 : Int) ≤ n ∧ n < Nat.pow 2 64

instance (n : Int) : Decidable (IsWord n) := inferInstanceAs (Decidable (_ ∧ _))

namespace Numeral

def Ends (s : List Char) : Prop :=
  ∀ c ∈ s.head?, c.isDigit = false ∧ c ≠ '.' ∧ c ≠ 'e' ∧ c ≠ 'E'

theorem Ends.append {s r : List Char} (hs : Ends s) (hr : Ends r) : Ends (s ++ r) := by
  cases s with
  | nil => exact hr
  | cons c s => exact hs

theorem digits_append {ds s : List Char} (hd : ∀ c ∈ ds, c.isDigit = true) (hs : Ends s) :
    digits (ds ++ s) = (ds, s) := by
  have hn : ∀ c ∈ s.head?, c.isDigit = false := fun c hc => (hs c hc).1
  rw [digits, Text.takeWhile_append_eq hd hn, Text.dropWhile_append_eq hd hn]

theorem fraction?_of_ends {s : List Char} (hs : Ends s) : fraction? s = some (none, s) := by
  cases s with
  | nil => rfl
  | cons c s =>
    have hc := (hs c rfl).2.1
    simp [fraction?, hc]

theorem exponent?_of_ends {s : List Char} (hs : Ends s) : exponent? s = some (none, s) := by
  cases s with
  | nil => rfl
  | cons c s =>
    obtain ⟨-, -, he, hE⟩ := hs c rfl
    simp [exponent?, he, hE]

theorem toDigits_eq_zero_cons {n : Nat} {ds : List Char} (h : Nat.toDigits 10 n = '0' :: ds) :
    ds = [] := by
  induction n using Nat.strongRecOn generalizing ds with
  | ind n ih =>
    rw [Nat.toDigits_eq_if (by decide)] at h
    split at h
    · exact (List.cons.inj h).2.symm
    · rename_i hn
      cases hq : Nat.toDigits 10 (n / 10) with
      | nil => exact absurd hq Nat.toDigits_ne_nil
      | cons d qs =>
        rw [hq] at h
        obtain ⟨rfl, -⟩ := List.cons.inj h
        -- The digits of a smaller number would be a zero alone, and the number itself too small.
        obtain rfl := ih (n / 10) (by omega) hq
        have hz : Nat.ofDigitChars 10 ['0'] 0 = n / 10 := by
          rw [← hq, Nat.ofDigitChars_ten_toDigits]
        have hv : Nat.ofDigitChars 10 ['0'] 0 = 0 := by decide
        omega

theorem whole?_toDigits (n : Nat) {s : List Char} (hs : Ends s) :
    whole? (Nat.toDigits 10 n ++ s) = some (Nat.toDigits 10 n, s) := by
  have hd := digits_append (fun c hc => Natural.isDigit_of_mem (n := n) hc) hs
  have hne : Nat.toDigits 10 n ≠ [] := Nat.toDigits_ne_nil
  cases hn : Nat.toDigits 10 n with
  | nil => exact absurd hn hne
  | cons c ds =>
    by_cases hc : c = '0'
    · subst hc
      rw [toDigits_eq_zero_cons hn]
      rfl
    · rw [hn] at hd
      rw [List.cons_append] at hd ⊢
      rw [whole?, hd]
      · rfl
      · intro r hr
        exact hc (List.cons.inj hr).1

theorem read?_toDigits (n : Nat) {s : List Char} (hs : Ends s) :
    read? (Nat.toDigits 10 n ++ s) = some (⟨false, Nat.toDigits 10 n, none, none⟩, s) := by
  have hw := whole?_toDigits n hs
  have hm : ∀ r, Nat.toDigits 10 n ++ s ≠ '-' :: r := by
    intro r hr
    cases hn : Nat.toDigits 10 n with
    | nil => exact Nat.toDigits_ne_nil hn
    | cons c ds =>
      rw [hn] at hr
      have hc := Natural.isDigit_of_mem (n := n) (c := c) (by simp [hn])
      rw [(List.cons.inj hr).1] at hc
      cases hc
  unfold read?
  split
  rename_i negative r hr
  split at hr
  · exact absurd ‹_› (hm _)
  · obtain ⟨rfl, rfl⟩ := Prod.mk.inj hr
    simp [hw, fraction?_of_ends hs, exponent?_of_ends hs]

theorem read?_minus_toDigits (n : Nat) {s : List Char} (hs : Ends s) :
    read? ('-' :: (Nat.toDigits 10 n ++ s)) =
      some (⟨true, Nat.toDigits 10 n, none, none⟩, s) := by
  simp [read?, whole?_toDigits n hs, fraction?_of_ends hs, exponent?_of_ends hs]

theorem absorb_eq {limit n : Nat} {ds : List Char} (h : Nat.ofDigitChars 10 ds n ≤ limit) :
    absorb limit n ds = (Nat.ofDigitChars 10 ds n, []) := by
  induction ds generalizing n with
  | nil => rfl
  | cons c ds ih =>
    have hv : 10 * n + (c.toNat - '0'.toNat) = n * 10 + digitValue c := by
      rw [Nat.mul_comm]
      rfl
    rw [Nat.ofDigitChars_cons, hv] at h ⊢
    rw [absorb, if_pos (Nat.le_trans (Natural.le_ofDigitChars ds _) h), ih h]

theorem absorb_le {limit n : Nat} (h : n ≤ limit) (ds : List Char) : (absorb limit n ds).1 ≤ limit := by
  induction ds generalizing n with
  | nil => exact h
  | cons c ds ih =>
    rw [absorb]
    split
    · exact ih ‹_›
    · exact h

theorem value?_natural {n : Nat} (h : n < Nat.pow 2 64) :
    value? ⟨false, Nat.toDigits 10 n, none, none⟩ = some (.int n) := by
  have hn : Nat.ofDigitChars 10 (Nat.toDigits 10 n) 0 = n := Nat.ofDigitChars_ten_toDigits
  have ha : absorb maxNat64 0 (Nat.toDigits 10 n) = (n, []) := by
    rw [absorb_eq (by rw [hn]; exact Nat.le_sub_one_of_lt h), hn]
  rw [value?, ha]
  rfl

theorem value?_minus {n : Nat} (hp : 0 < n) (h : n ≤ Nat.pow 2 63) :
    value? ⟨true, Nat.toDigits 10 n, none, none⟩ = some (.int (-n)) := by
  have hn : Nat.ofDigitChars 10 (Nat.toDigits 10 n) 0 = n := Nat.ofDigitChars_ten_toDigits
  have hl : n ≤ maxNat64 := Nat.le_trans h (by decide)
  have ha : absorb maxNat64 0 (Nat.toDigits 10 n) = (n, []) := by
    rw [absorb_eq (by rw [hn]; exact hl), hn]
  rw [value?, ha]
  simp [hp, h]

theorem toList_negSucc (n : Nat) :
    (toString (Int.negSucc n)).toList = '-' :: Nat.toDigits 10 (n + 1) := by
  have hs : toString (Int.negSucc n) = "-" ++ toString (n + 1) := rfl
  rw [hs, String.toList_append, Natural.toList_toString]
  rfl

theorem toList_int (n : Int) :
    ∃ c s, (toString n).toList = c :: s ∧ (c = '-' ∨ c.isDigit = true) := by
  cases n with
  | ofNat n =>
    cases hn : Nat.toDigits 10 n with
    | nil => exact absurd hn Nat.toDigits_ne_nil
    | cons c s =>
      have hc : c.isDigit = true := Natural.isDigit_of_mem (n := n) (by simp [hn])
      exact ⟨c, s, (Natural.toList_toString n).trans hn, .inr hc⟩
  | negSucc n => exact ⟨_, _, toList_negSucc n, .inl rfl⟩

/-- A whole number of 64 bits, written in decimal, is read as itself. -/
theorem read?_int {n : Int} (hn : IsWord n) {s : List Char} (hs : Ends s) :
    ∃ m, read? ((toString n).toList ++ s) = some (m, s) ∧ m.value? = some (.int n) := by
  cases n with
  | ofNat n =>
    have ht : (toString (Int.ofNat n)).toList = Nat.toDigits 10 n := Natural.toList_toString n
    rw [ht]
    exact ⟨_, read?_toDigits n hs, value?_natural (Int.ofNat_lt.mp hn.2)⟩
  | negSucc n =>
    rw [toList_negSucc]
    refine ⟨_, read?_minus_toDigits (n + 1) hs, value?_minus (Nat.succ_pos n) ?_⟩
    have := hn.1
    omega

theorem value?_cases {m : Numeral} {v : Json} (h : m.value? = some v) :
    (∃ n, v = .int n ∧ IsWord n) ∨ ∃ x, v = .float x := by
  unfold value? at h
  split at h
  · rename_i n _ _ ha
    have hle : (absorb maxNat64 0 m.whole).1 ≤ maxNat64 := absorb_le (Nat.zero_le _) m.whole
    rw [ha] at hle
    have hlt : n < Nat.pow 2 64 := Nat.lt_of_le_sub_one (by decide) hle
    split at h
    · refine .inl ⟨n, (Option.some.inj h).symm, ?_, Int.ofNat_lt.mpr hlt⟩
      exact Int.le_trans (Int.neg_nonpos_of_nonneg (Int.natCast_nonneg _)) (Int.natCast_nonneg _)
    · split at h
      · rename_i hn
        refine .inl ⟨-n, (Option.some.inj h).symm, Int.neg_le_neg (Int.ofNat_le.mpr hn.2), ?_⟩
        exact Int.lt_of_le_of_lt (Int.neg_nonpos_of_nonneg (Int.natCast_nonneg _)) (by decide)
      · exact .inr ⟨_, (Option.some.inj h).symm⟩
  · obtain ⟨x, -, hx⟩ := Option.map_eq_some_iff.mp h
    exact .inr ⟨x, hx.symm⟩

end Numeral

end Relocate.Json
