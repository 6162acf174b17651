import Relocate.Proofs.Interpreter.Selection
import Relocate.Proofs.Number.Natural
import Relocate.Proofs.Text.Trim

namespace Relocate.Interpreter.Version

open Natural (IsDecimal IsNumeral max32)
open Text (Trims splitAt)

/-- Where a version is looked for: in a text without one `Python ` in front, and then without the
blanks at its ends. -/
inductive IsCore (s t : String) : Prop
  | named {r : List Char} (h : s.toList = "Python ".toList ++ r) (ht : Trims r t.toList)
  | bare (h : ¬ "Python ".toList <+: s.toList) (ht : Trims s.toList t.toList)

/-- What may follow two numbers, and the patch number in it: after one more dot the longest run of
digits counts, if it makes a word of 32 bits. -/
inductive Trails : List Char → Nat → Prop
  | nothing : Trails [] 0
  | word {ds rest : List Char} (digits : ∀ c ∈ ds, c.isDigit = true)
    (longest : ∀ c ∈ rest.head?, c.isDigit = false) (h : Nat.ofDigitChars 10 ds 0 < Nat.pow 2 32) :
    Trails ('.' :: (ds ++ rest)) (Nat.ofDigitChars 10 ds 0)
  | tooLarge {ds rest : List Char} (digits : ∀ c ∈ ds, c.isDigit = true)
    (longest : ∀ c ∈ rest.head?, c.isDigit = false) (h : Nat.pow 2 32 ≤ Nat.ofDigitChars 10 ds 0) :
    Trails ('.' :: (ds ++ rest)) 0

/-- A text that spells a version: two numbers with a dot between them, and what may follow. -/
inductive Spells (t : List Char) (v : Version) : Prop
  | intro {major minor rest : List Char} (parts : t = major ++ '.' :: (minor ++ rest))
    (major_eq : IsNumeral major v.major.toNat) (minor_eq : IsNumeral minor v.minor.toNat)
    (patch_eq : Trails rest v.patch.toNat)

theorem core_eq_iff {s t : String} : core s = t ↔ IsCore s t := by
  rw [core, afterName]
  by_cases h : "Python ".toList <+: s.toList
  · rw [if_pos (List.isPrefixOf_iff_prefix.mpr h), Text.ofList_trim_eq_iff]
    obtain ⟨r, hs⟩ := h
    have hd : s.toList.drop "Python ".length = r := by
      rw [← hs]
      exact List.drop_left
    rw [hd]
    constructor
    · exact .named hs.symm
    · rintro (⟨h', ht⟩ | ⟨h', -⟩)
      · rw [← hs, List.append_cancel_left_eq] at h'
        rwa [h']
      · exact absurd ⟨r, hs⟩ h'
  · rw [if_neg (by rwa [List.isPrefixOf_iff_prefix]), Text.ofList_trim_eq_iff]
    constructor
    · exact .bare h
    · rintro (⟨h', -⟩ | ⟨-, ht⟩)
      · exact absurd ⟨_, h'.symm⟩ h
      · exact ht

theorem number?_eq_some {s : List Char} {n : UInt32} :
    number? s = some n ↔ IsNumeral s n.toNat := by
  have hlimit : n.toNat ≤ max32 := Nat.le_sub_one_of_lt n.toNat_lt
  rw [number?]
  cases hr : Natural.read max32 s with
  | error e =>
    refine iff_of_false nofun fun h => ?_
    rw [Natural.read_eq_ok.mpr ⟨h, hlimit⟩] at hr
    cases hr
  | ok m =>
    obtain ⟨hm, hle⟩ := Natural.read_eq_ok.mp hr
    have hword : m.toUInt32.toNat = m := UInt32.toNat_ofNat_of_lt' (Nat.lt_of_le_sub_one (by decide) hle)
    have hs : some m.toUInt32 = some n ↔ m = n.toNat := by
      rw [Option.some.injEq, ← UInt32.toNat_inj, hword]
    refine hs.trans ⟨?_, hm.unique⟩
    rintro rfl
    exact hm

theorem not_mem_of_isNumeral {s : List Char} {n : Nat} (h : IsNumeral s n) : '.' ∉ s := by
  have hd {ds : List Char} (h : IsDecimal ds n) : '.' ∉ ds := fun hm => by
    have := h.digits _ hm
    contradiction
  cases h with
  | plain h => exact hd h
  | signed h => simpa using hd h

theorem toNat_patchNumber {ds rest : List Char} (digits : ∀ c ∈ ds, c.isDigit = true)
    (longest : ∀ c ∈ rest.head?, c.isDigit = false) : (patchNumber (ds ++ rest)).toNat =
      if Nat.ofDigitChars 10 ds 0 < Nat.pow 2 32 then Nat.ofDigitChars 10 ds 0 else 0 := by
  rw [patchNumber, Text.takeWhile_append_eq digits longest]
  by_cases hne : ds = []
  · subst hne
    rfl
  · have hd : IsNumeral ds (Nat.ofDigitChars 10 ds 0) := .plain ⟨hne, digits, rfl⟩
    cases hn : number? ds with
    | some n =>
      have hv := (number?_eq_some.mp hn).unique hd
      rw [if_pos (by rw [← hv]; exact n.toNat_lt), ← hv]
      rfl
    | none =>
      split
      · rename_i hlt
        have hw : (Nat.ofDigitChars 10 ds 0).toUInt32.toNat = Nat.ofDigitChars 10 ds 0 :=
          UInt32.toNat_ofNat_of_lt' hlt
        rw [← hw] at hd
        rw [number?_eq_some.mpr hd] at hn
        cases hn
      · rfl

theorem exists_digits (s : List Char) : ∃ ds rest, s = ds ++ rest ∧
    (∀ c ∈ ds, c.isDigit = true) ∧ ∀ c ∈ rest.head?, c.isDigit = false := by
  refine ⟨s.takeWhile Char.isDigit, s.dropWhile Char.isDigit, ?_, ?_, fun c hc => ?_⟩
  · exact List.takeWhile_append_dropWhile.symm
  · exact fun c => List.mem_takeWhile_imp
  · have hh := List.head?_dropWhile_not Char.isDigit s
    rwa [Option.mem_def.mp hc] at hh

theorem trails_dot {s : List Char} {n : UInt32} :
    Trails ('.' :: s) n.toNat ↔ n = patchNumber s := by
  rw [← UInt32.toNat_inj]
  constructor
  · generalize n.toNat = m
    rintro (_ | ⟨digits, longest, h⟩ | ⟨digits, longest, h⟩)
    · rw [toNat_patchNumber digits longest, if_pos h]
    · rw [toNat_patchNumber digits longest, if_neg (Nat.not_lt.mpr h)]
  · intro h
    obtain ⟨ds, rest, rfl, digits, longest⟩ := exists_digits s
    rw [h, toNat_patchNumber digits longest]
    split
    · exact .word digits longest ‹_›
    · exact .tooLarge digits longest (Nat.not_lt.mp ‹_›)

theorem patchNumber_headD (s : List Char) :
    patchNumber ((splitAt '.' s).headD []) = patchNumber s := by
  have hd : (fun c : Char => decide (c.isDigit = true ∧ decide (c ≠ '.') = true)) = Char.isDigit := by
    funext c
    by_cases hc : c = '.'
    · rw [hc]
      rfl
    · simp [hc]
  rw [patchNumber, patchNumber, Text.headD_splitAt, List.takeWhile_takeWhile, hd]

theorem ofParts?_eq_some {major minor : List Char} {rest : List (List Char)} {v : Version} :
    ofParts? (major :: minor :: rest) = some v ↔ IsNumeral major v.major.toNat ∧
      IsNumeral minor v.minor.toNat ∧ v.patch = patchNumber (rest.headD []) := by
  obtain ⟨a, b, c⟩ := v
  rw [← number?_eq_some, ← number?_eq_some, ofParts?]
  cases number? major with
  | none => simp
  | some m => cases number? minor <;> simp [eq_comm]

theorem Spells.pieces {t : List Char} {v : Version} (h : Spells t v) :
    ofParts? (splitAt '.' t) = some v := by
  obtain ⟨rfl, hmajor, hminor, hpatch⟩ := h
  rename_i major minor rest
  rw [Text.splitAt_append (not_mem_of_isNumeral hmajor)]
  cases rest with
  | nil =>
    rw [List.append_nil, Text.splitAt_of_not_mem (not_mem_of_isNumeral hminor), ofParts?_eq_some]
    refine ⟨hmajor, hminor, UInt32.toNat_inj.mp ?_⟩
    generalize v.patch.toNat = p at hpatch
    cases hpatch
    rfl
  | cons c s =>
    have hc : c = '.' := by
      generalize v.patch.toNat = p at hpatch
      cases hpatch <;> rfl
    rw [hc] at hpatch ⊢
    rw [Text.splitAt_append (not_mem_of_isNumeral hminor), ofParts?_eq_some, patchNumber_headD]
    exact ⟨hmajor, hminor, trails_dot.mp hpatch⟩

theorem spells_of_pieces {t : List Char} {v : Version} (h : ofParts? (splitAt '.' t) = some v) :
    Spells t v := by
  obtain ⟨-, hs⟩ | ⟨major, s, rfl, hs⟩ := Text.splitAt_cases '.' t
  · rw [hs] at h
    cases h
  rw [hs] at h
  obtain ⟨-, hs⟩ | ⟨minor, rest, rfl, hs⟩ := Text.splitAt_cases '.' s
  · rw [hs, ofParts?_eq_some] at h
    obtain ⟨hmajor, hminor, hpatch⟩ := h
    refine .intro (by rw [List.append_nil]) hmajor hminor ?_
    rw [hpatch]
    exact .nothing
  · rw [hs, ofParts?_eq_some, patchNumber_headD] at h
    obtain ⟨hmajor, hminor, hpatch⟩ := h
    exact .intro rfl hmajor hminor (trails_dot.mpr hpatch)

theorem ofText?_eq_some {s : String} {v : Version} :
    ofText? s = some v ↔ Spells (core s).toList v := ⟨spells_of_pieces, Spells.pieces⟩

theorem read_eq_ok {s : String} {v : Version} : read s = .ok v ↔ Spells (core s).toList v := by
  rw [← ofText?_eq_some, read]
  cases ofText? s <;> simp

theorem read_eq_error {s : String} {e : Error} :
    read s = .error e ↔ (∀ v, ¬ Spells (core s).toList v) ∧ e = .invalidVersion (core s) := by
  have hn : ofText? s = none ↔ ∀ v, ¬ Spells (core s).toList v := by
    rw [Option.eq_none_iff_forall_ne_some]
    exact forall_congr' fun v => not_congr ofText?_eq_some
  rw [← hn, read]
  cases ofText? s <;> simp [eq_comm]

/-- A version is read from just those texts that spell one, and else the text in which it was looked
for is told. Whether a version is recent enough depends on its first two numbers alone. -/
theorem read_iff_spells (s : String) :
    (∀ t, core s = t ↔ IsCore s t) ∧
      (∀ v, read s = .ok v ↔ Spells (core s).toList v) ∧
      (∀ e, read s = .error e ↔
        (∀ v, ¬ Spells (core s).toList v) ∧ e = .invalidVersion (core s)) ∧
      ∀ v, read s = .ok v → (v.meetsMinimum = true ↔
        3 < v.major.toNat ∨ v.major.toNat = 3 ∧ 8 ≤ v.minor.toNat) :=
  ⟨fun _ => core_eq_iff, fun _ => read_eq_ok, fun _ => read_eq_error, fun v _ => meetsMinimum_iff v⟩

example : read "Python +3.012.0rc1.7\n" = .ok ⟨3, 12, 0⟩ := by rfl

end Relocate.Interpreter.Version
