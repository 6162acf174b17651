import Mathlib.Data.List.TakeDrop
import Mathlib.Data.List.TakeWhile
import Relocate.Proofs.Text.Trim
import Relocate.Source.Encoding

namespace Relocate.Source

open Utf8 (Bytes)

inductive IsHead : Bytes → Bytes → Prop
  | whole {data : Bytes} (h : data.count 10 ≤ 1) : IsHead data data
  | cut {front rest : Bytes} (h : front.count 10 = 1) : IsHead (front ++ 10 :: rest) front

structure FirstAt (word s front rest : Bytes) : Prop where
  parts : s = front ++ word ++ rest
  first : ∀ x y, s = x ++ word ++ y → front.length ≤ x.length

def IsNameByte (b : UInt8) : Prop :=
  (Char.ofNat b.toNat).isAlphanum = true ∨ b ∈ Utf8.encode "-_"

/-- Past a blank run comes a name, and what comes next would not go on with it. -/
structure NameAfter (s blank name rest : Bytes) : Prop where
  parts : s = blank ++ (name ++ rest)
  blank : ∀ b ∈ blank, b ∈ Utf8.encode " \t\n\x0c\r"
  nonempty : name ≠ []
  bytes : ∀ b ∈ name, IsNameByte b
  longest : ∀ b ∈ rest.head?, ¬ IsNameByte b

/-- The declaration of an encoding. -/
inductive Declares (data name : Bytes) : Prop
  | intro {text front blank s rest : Bytes} {b : UInt8} (head : IsHead data text)
    (marker : FirstAt (Utf8.encode "coding") text front (b :: s))
    (separator : b ∈ Utf8.encode "=:") (run : NameAfter s blank name rest)

theorem count_line (s : Bytes) : (s.takeWhile (· ≠ 10)).count 10 = 0 := by
  apply List.count_eq_zero_of_not_mem
  intro h
  simpa using List.mem_takeWhile_imp h

theorem count_append_feed (s t : Bytes) : (s ++ 10 :: t).count 10 = s.count 10 + t.count 10 + 1 := by
  rw [List.count_append, List.count_cons_self, Nat.add_assoc]

theorem line_cases (s : Bytes) :
    s.dropWhile (· ≠ 10) = [] ∧ s = s.takeWhile (· ≠ 10) ∨
      ∃ rest, s.dropWhile (· ≠ 10) = 10 :: rest ∧ s = s.takeWhile (· ≠ 10) ++ 10 :: rest := by
  have hs : s.takeWhile (· ≠ 10) ++ s.dropWhile (· ≠ 10) = s := List.takeWhile_append_dropWhile
  cases hd : s.dropWhile (· ≠ 10) with
  | nil =>
    rw [hd, List.append_nil] at hs
    exact .inl ⟨rfl, hs.symm⟩
  | cons b rest =>
    have hb : b = 10 := by
      have h := List.head?_dropWhile_not (· ≠ 10) s
      rw [hd] at h
      simpa using h
    subst hb
    rw [hd] at hs
    exact .inr ⟨rest, rfl, hs.symm⟩

theorem isHead_head (data : Bytes) : IsHead data (head data) := by
  have hf := count_line data
  obtain ⟨hd, ht⟩ | ⟨rest, hd, ht⟩ := line_cases data
  · have hh : head data = data := by
      simp only [head, List.span_eq_takeWhile_dropWhile, hd]
      exact ht.symm
    rw [hh]
    apply IsHead.whole
    rw [ht]
    omega
  have hr := count_line rest
  have hh : head data = data.takeWhile (· ≠ 10) ++ 10 :: rest.takeWhile (· ≠ 10) := by
    simp only [head, List.span_eq_takeWhile_dropWhile, hd]
  obtain ⟨-, he⟩ | ⟨rest', -, he⟩ := line_cases rest
  · rw [← he, ← ht] at hh
    rw [hh]
    apply IsHead.whole
    rw [ht, count_append_feed, he]
    omega
  · have hc : data = head data ++ 10 :: rest' := by
      rw [hh, List.append_assoc, List.cons_append, ← he]
      exact ht
    have h1 : (head data).count 10 = 1 := by
      rw [hh, count_append_feed]
      omega
    have h : IsHead (head data ++ 10 :: rest') (head data) := .cut h1
    rwa [← hc] at h

theorem eq_of_cut {f g r s : Bytes} (hf : f.count 10 = 1) (hg : g.count 10 = 1)
    (h : f ++ 10 :: r = g ++ 10 :: s) (hl : f.length ≤ g.length) : f = g := by
  have hp : f <+: g ++ 10 :: s := ⟨10 :: r, h⟩
  obtain ⟨a, rfl⟩ := List.prefix_of_prefix_length_le hp (List.prefix_append g (10 :: s)) hl
  rw [List.append_assoc, List.append_cancel_left_eq] at h
  cases a with
  | nil => rw [List.append_nil]
  | cons b a =>
    obtain rfl : 10 = b := (List.cons.inj h).1
    rw [count_append_feed] at hg
    omega

theorem IsHead.unique {data h h' : Bytes} (hh : IsHead data h) (hh' : IsHead data h') : h = h' := by
  generalize hd : data = data' at hh'
  cases hh with
  | whole hc =>
    cases hh' with
    | whole _ => exact hd
    | cut hc' =>
      rw [hd, count_append_feed] at hc
      omega
  | cut hc =>
    cases hh' with
    | whole hc' =>
      rw [← hd, count_append_feed] at hc'
      omega
    | cut hc' =>
      obtain hl | hl := Nat.le_total h.length h'.length
      · exact eq_of_cut hc hc' hd hl
      · exact (eq_of_cut hc' hc hd.symm hl).symm

theorem head_eq_iff {data h : Bytes} : head data = h ↔ IsHead data h := by
  constructor
  · rintro rfl
    exact isHead_head data
  · exact (isHead_head data).unique

theorem after?_eq_some_iff {word s rest : Bytes} :
    after? word s = some rest ↔ ∃ front, FirstAt word s front rest := by
  induction s with
  | nil =>
    rw [after?]
    constructor
    · intro h
      have hw : word = [] ∧ [] = rest := by simpa using h
      exact ⟨[], by rw [hw.1, ← hw.2]; rfl, fun _ _ _ => Nat.zero_le _⟩
    · rintro ⟨front, hp, -⟩
      have hw : front = [] ∧ word = [] ∧ rest = [] := by simpa using hp
      simp [hw]
  | cons b s ih =>
    by_cases hp : word <+: b :: s
    · rw [after?, if_pos (List.isPrefixOf_iff_prefix.mpr hp)]
      obtain ⟨r, hr⟩ := hp
      rw [← hr, List.drop_left, Option.some.injEq]
      constructor
      · rintro rfl
        exact ⟨[], rfl, fun _ _ _ => Nat.zero_le _⟩
      · rintro ⟨front, hp, hf⟩
        have hn : front = [] := List.eq_nil_of_length_eq_zero (Nat.le_zero.mp (hf [] r rfl))
        subst hn
        exact List.append_cancel_left hp
    · -- The word does not stand at the front, so each of its places lies one byte further on.
      rw [after?, if_neg (by rwa [List.isPrefixOf_iff_prefix]), ih]
      constructor
      · rintro ⟨front, hs, hf⟩
        refine ⟨b :: front, by rw [hs]; rfl, fun x y hx => ?_⟩
        cases x with
        | nil => exact absurd ⟨y, hx.symm⟩ hp
        | cons c x =>
          have := hf x y (List.cons.inj hx).2
          simpa using this
      · rintro ⟨front, hs, hf⟩
        cases front with
        | nil => exact absurd ⟨rest, hs.symm⟩ hp
        | cons c front =>
          refine ⟨front, (List.cons.inj hs).2, fun x y hx => ?_⟩
          have := hf (b :: x) y (by rw [hx]; rfl)
          simpa using this

theorem mem_encode_blank {b : UInt8} : b ∈ Utf8.encode " \t\n\x0c\r" ↔ isSpace b = true := by
  have h : Utf8.encode " \t\n\x0c\r" = [32, 9, 10, 12, 13] := by decide +kernel
  simp [h, isSpace, or_assoc]

theorem mem_encode_separator {b : UInt8} : b ∈ Utf8.encode "=:" ↔ b = 61 ∨ b = 58 := by
  have h : Utf8.encode "=:" = [61, 58] := by decide +kernel
  simp [h]

theorem mem_encode_hyphen {b : UInt8} : b ∈ Utf8.encode "-_" ↔ b = 45 ∨ b = 95 := by
  have h : Utf8.encode "-_" = [45, 95] := by decide +kernel
  simp [h]

theorem forall_byte {P : UInt8 → Prop} (h : ∀ n : Fin 256, P (UInt8.ofNat n)) (b : UInt8) : P b := by
  have hb := h ⟨b.toNat, b.toNat_lt⟩
  rwa [UInt8.ofNat_toNat] at hb

theorem isNameByte_iff {b : UInt8} : isNameByte b = true ↔ IsNameByte b := by
  have hl : ∀ b, (isLetter b || isDigit b) = (Char.ofNat b.toNat).isAlphanum :=
    forall_byte (by decide +kernel)
  rw [IsNameByte, ← hl, mem_encode_hyphen]
  simp [isNameByte, or_assoc]

theorem isSpace_eq_false : ∀ b, isNameByte b = true → isSpace b = false :=
  forall_byte (by decide +kernel)

theorem nameAfter_iff {s name : Bytes} :
    (s.dropWhile isSpace).takeWhile isNameByte = name ∧ name ≠ [] ↔
      ∃ blank rest, NameAfter s blank name rest := by
  constructor
  · rintro ⟨rfl, hn⟩
    refine ⟨s.takeWhile isSpace, (s.dropWhile isSpace).dropWhile isNameByte, ?_, ?_, hn, ?_, ?_⟩
    · rw [List.takeWhile_append_dropWhile, List.takeWhile_append_dropWhile]
    · intro b hb
      exact mem_encode_blank.mpr (List.mem_takeWhile_imp hb)
    · intro b hb
      exact isNameByte_iff.mp (List.mem_takeWhile_imp hb)
    · intro b hb hn
      have h := List.head?_dropWhile_not isNameByte (s.dropWhile isSpace)
      rw [Option.mem_def.mp hb] at h
      change isNameByte b = false at h
      rw [isNameByte_iff.mpr hn] at h
      cases h
  · rintro ⟨blank, rest, h⟩
    have hname : ∀ b ∈ name, isNameByte b = true := fun b hb => isNameByte_iff.mpr (h.bytes b hb)
    have hrest : ∀ b ∈ rest.head?, isNameByte b = false := by
      intro b hb
      rw [← Bool.not_eq_true, isNameByte_iff]
      exact h.longest b hb
    -- A name does not begin with a blank.
    have hfirst : ∀ b ∈ (name ++ rest).head?, isSpace b = false := by
      intro b hb
      rw [List.head?_append_of_ne_nil name h.nonempty] at hb
      exact isSpace_eq_false b (hname b (List.mem_of_head? hb))
    have hblank : ∀ b ∈ blank, isSpace b = true := fun b hb => mem_encode_blank.mp (h.blank b hb)
    refine ⟨?_, h.nonempty⟩
    rw [h.parts, Text.dropWhile_append_eq hblank hfirst, Text.takeWhile_append_eq hname hrest]

theorem declaredName?_eq_some {data name : Bytes} : declaredName? data = some name ↔
    ∃ b s, after? (Utf8.encode "coding") (head data) = some (b :: s) ∧ (b = 61 ∨ b = 58) ∧
      (s.dropWhile isSpace).takeWhile isNameByte = name ∧ name ≠ [] := by
  rw [declaredName?]
  rcases after? (Utf8.encode "coding") (head data) with _ | _ | ⟨b, s⟩
  · simp
  · simp
  have hrun : ∀ run : Bytes, (if b = 61 ∨ b = 58 then if run.isEmpty then none else some run
      else none) = some name ↔ (b = 61 ∨ b = 58) ∧ run = name ∧ name ≠ [] := by
    intro run
    by_cases hb : b = 61 ∨ b = 58
    · cases run <;> simp +contextual [hb, eq_comm]
    · simp [hb]
  constructor
  · intro h
    exact ⟨b, s, rfl, (hrun _).mp h⟩
  · rintro ⟨_, _, ⟨⟩, h⟩
    exact (hrun _).mpr h

theorem declaredName?_eq_some_iff {data name : Bytes} :
    declaredName? data = some name ↔ Declares data name := by
  rw [declaredName?_eq_some]
  constructor
  · rintro ⟨b, s, ha, hb, hn⟩
    obtain ⟨front, hf⟩ := after?_eq_some_iff.mp ha
    obtain ⟨blank, rest, hr⟩ := nameAfter_iff.mp hn
    exact .intro (isHead_head data) hf (mem_encode_separator.mpr hb) hr
  · rintro ⟨head, marker, separator, run⟩
    rw [head_eq_iff.mpr head]
    exact ⟨_, _, after?_eq_some_iff.mpr ⟨_, marker⟩, mem_encode_separator.mp separator,
      nameAfter_iff.mpr ⟨_, _, run⟩⟩

/-- A file declares the encoding that the grammar finds in what stands before its second line feed,
and nothing that follows changes it. -/
theorem declaredName?_iff_declares (data : Bytes) :
    (∀ name, declaredName? data = some name ↔ Declares data name) ∧
      (declaredName? data = none ↔ ∀ name, ¬ Declares data name) ∧
      ∀ front, front.count 10 = 1 → ∀ s t,
        declaredName? (front ++ 10 :: s) = declaredName? (front ++ 10 :: t) ∧
          encoding (front ++ 10 :: s) = encoding (front ++ 10 :: t) := by
  refine ⟨fun name => declaredName?_eq_some_iff, ?_, fun front hf s t => ?_⟩
  · rw [Option.eq_none_iff_forall_ne_some]
    exact forall_congr' fun name => not_congr declaredName?_eq_some_iff
  · have hh : head (front ++ 10 :: s) = head (front ++ 10 :: t) := by
      rw [head_eq_iff.mpr (.cut hf), head_eq_iff.mpr (.cut hf)]
    have hd : declaredName? (front ++ 10 :: s) = declaredName? (front ++ 10 :: t) := by
      rw [declaredName?, declaredName?, hh]
    exact ⟨hd, by rw [encoding, encoding, hd]⟩

end Relocate.Source
