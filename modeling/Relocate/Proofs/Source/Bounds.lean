import Mathlib.Data.List.Basic
import Relocate.Proofs.Source.Cut
import Relocate.Proofs.Source.Declaration

namespace Relocate.Source

open Utf8 (Bytes decode_flatMap_encodeChar isBoundary_iff)

namespace Checked

def slice? {α : Type} (s : List α) (start stop : Nat) : Option (List α) :=
  if start ≤ stop ∧ stop ≤ s.length then some ((s.take stop).drop start) else none

/-- The characters between two positions of UTF-8 text, neither of which may cut a character. -/
def characters? (data : Bytes) (start stop : Nat) : Option (List Char) :=
  if start ≤ stop ∧ Utf8.isBoundary data start ∧ Utf8.isBoundary data stop then
    (slice? data start stop).bind Utf8.decode
  else none

def headEnd (data : Bytes) : Nat :=
  ((data.zipIdx.filter fun p => p.1 = 10)[1]?).elim data.length Prod.snd

def position? (word s : Bytes) : Option Nat :=
  (List.range (s.length + 1 - word.length)).find? fun i => slice? s i (i + word.length) = some word

def pastBlank (s : Bytes) (i : Nat) : Nat :=
  match h : s[i]? with
  | some b => if isSpace b then pastBlank s (i + 1) else i
  | none => i
termination_by s.length - i
decreasing_by
  have := (List.getElem?_eq_some_iff.mp h).1
  omega

/-- Where the name of an encoding would begin. -/
def nameStart? (head : Bytes) : Option Nat := do
  let found ← position? (Utf8.encode "coding") head
  let start := found + (Utf8.encode "coding").length
  if head[start]? = some 61 ∨ head[start]? = some 58 then some (pastBlank head (start + 1))
  else none

def declaredName? (data : Bytes) : Option (Option Bytes) := do
  let head ← slice? data 0 (headEnd data)
  match nameStart? head with
  | none => some none
  | some start =>
    let name := (← slice? head start head.length).takeWhile isNameByte
    some (if name.isEmpty then none else some name)

def encoding (data : Bytes) : Option Encoding :=
  (declaredName? data).map fun name =>
    name.elim (.utf8 false) fun name => .ofName (nameText (canonicalName name))

def utf8Index (data : Bytes) (offset : Nat) (dropsMark : Bool) : Option (Except OffsetError Nat) :=
  if !isUtf8 data then (slice? data 0 offset).map fun s => .ok (count false (bytewise s))
  else if !Utf8.isBoundary data offset then some (.error (.insideCharacter offset))
  else
    (characters? data (min (markLength dropsMark data) offset) offset).map fun s =>
      .ok (count false s)

def charIndex (data : Bytes) (offset : Nat) : Option (Except OffsetError Nat) :=
  if data.length < offset then some (.error (.pastEnd offset data.length))
  else do
    let front ← slice? data 0 offset
    match ← encoding data with
    | .multibyte name => some (.error (.multibyteEncoding name))
    | .bytewise => some (.ok (count false (bytewise front)))
    | .utf8 dropsMark => utf8Index data offset dropsMark

section

variable {α : Type} {s : List α} {start stop : Nat}

theorem slice?_eq_some_iff {part : List α} : slice? s start stop = some part ↔
    start ≤ stop ∧ stop ≤ s.length ∧ (s.take stop).drop start = part := by
  unfold slice?
  split
  · rename_i h
    simp [h]
  · rename_i h
    simpa using fun h₁ h₂ => absurd ⟨h₁, h₂⟩ h

theorem slice?_front (h : stop ≤ s.length) : slice? s 0 stop = some (s.take stop) :=
  slice?_eq_some_iff.mpr ⟨Nat.zero_le stop, h, rfl⟩

theorem slice?_rest (h : start ≤ s.length) : slice? s start s.length = some (s.drop start) :=
  slice?_eq_some_iff.mpr ⟨h, Nat.le_refl _, by rw [List.take_length]⟩

end

theorem length_filter_zipIdx (s : Bytes) (k : Nat) :
    ((s.zipIdx k).filter fun p => p.1 = 10).length = s.count 10 := by
  induction s generalizing k with
  | nil => rfl
  | cons b s ih =>
    by_cases hb : b = 10 <;> simp [List.zipIdx_cons, hb, ih]

theorem headEnd_isHead {data text : Bytes} (h : IsHead data text) : headEnd data = text.length := by
  unfold headEnd
  cases h with
  | whole h =>
    rw [List.getElem?_eq_none (by rw [length_filter_zipIdx]; omega)]
    rfl
  | @cut _ rest h =>
    have hl : (text.zipIdx.filter fun p => p.1 = 10).length = 1 := by
      rw [length_filter_zipIdx, h]
    rw [List.zipIdx_append, List.filter_append, List.getElem?_append_right (by omega), hl]
    simp [List.zipIdx_cons]

theorem slice?_head (data : Bytes) : slice? data 0 (headEnd data) = some (head data) := by
  have h := isHead_head data
  rw [headEnd_isHead h]
  generalize head data = text at h
  cases h with
  | whole h => rw [slice?_rest (Nat.zero_le _)]; rfl
  | cut h => rw [slice?_front (by simp), List.take_left]

theorem slice?_word_iff {s word : Bytes} {i : Nat} : slice? s i (i + word.length) = some word ↔
    ∃ x y, s = x ++ word ++ y ∧ x.length = i := by
  rw [slice?_eq_some_iff]
  constructor
  · rintro ⟨-, hl, hw⟩
    rw [List.drop_take, Nat.add_sub_cancel_left] at hw
    have hd := List.take_append_drop word.length (s.drop i)
    rw [hw, List.drop_drop] at hd
    refine ⟨s.take i, s.drop (i + word.length), ?_, List.length_take_of_le (by omega)⟩
    rw [List.append_assoc, hd, List.take_append_drop]
  · rintro ⟨x, y, rfl, rfl⟩
    have hx : (x ++ word).length = x.length + word.length := List.length_append
    refine ⟨Nat.le_add_right _ _, ?_, ?_⟩
    · rw [List.length_append, hx]
      exact Nat.le_add_right _ _
    · rw [← hx, List.take_left, List.drop_left]

theorem position?_eq_some_iff {word s : Bytes} {i : Nat} : position? word s = some i ↔
    ∃ front rest, FirstAt word s front rest ∧ front.length = i := by
  have hfind : position? word s = some i ↔ (∃ x y, s = x ++ word ++ y ∧ x.length = i) ∧
      ∀ x y, s = x ++ word ++ y → i ≤ x.length := by
    rw [position?, List.find?_range_eq_some, decide_eq_true_eq, slice?_word_iff]
    -- All places lie within the text, so the range leaves none out.
    refine and_congr_right fun ⟨x, y, hs, hx⟩ => ?_
    constructor
    · rintro ⟨-, hj⟩ front rest hs'
      refine Nat.le_of_not_lt fun hlt => ?_
      simpa [slice?_word_iff.mpr ⟨front, rest, hs', rfl⟩] using hj front.length hlt
    · refine fun hf => ⟨?_, fun j hj => ?_⟩
      · rw [List.mem_range, hs, List.length_append, List.length_append]
        omega
      · rw [Bool.not_eq_true', decide_eq_false_iff_not, slice?_word_iff]
        rintro ⟨front, rest, hs', rfl⟩
        exact absurd (hf front rest hs') (Nat.not_le_of_lt hj)
  rw [hfind]
  constructor
  · rintro ⟨⟨x, y, hs, rfl⟩, hf⟩
    exact ⟨x, y, ⟨hs, hf⟩, rfl⟩
  · rintro ⟨front, rest, hf, rfl⟩
    exact ⟨⟨front, rest, hf.parts, rfl⟩, hf.first⟩

theorem after?_eq_position (word s : Bytes) :
    after? word s = (position? word s).map fun i => s.drop (i + word.length) := by
  cases hp : position? word s with
  | some i =>
    obtain ⟨front, rest, hf, rfl⟩ := position?_eq_some_iff.mp hp
    rw [Option.map_some, ← List.length_append]
    conv_rhs => rw [hf.parts, List.drop_left]
    exact after?_eq_some_iff.mpr ⟨front, hf⟩
  | none =>
    cases ha : after? word s with
    | none => rfl
    | some rest =>
      obtain ⟨front, hf⟩ := after?_eq_some_iff.mp ha
      rw [position?_eq_some_iff.mpr ⟨front, rest, hf, rfl⟩] at hp
      cases hp

theorem drop_pastBlank (s : Bytes) (i : Nat) :
    s.drop (pastBlank s i) = (s.drop i).dropWhile isSpace := by
  fun_induction pastBlank s i with
  | case1 i b hb hs ih =>
    obtain ⟨hi, rfl⟩ := List.getElem?_eq_some_iff.mp hb
    rw [ih, List.drop_eq_getElem_cons hi, List.dropWhile_cons_of_pos hs]
  | case2 i b hb hs =>
    obtain ⟨hi, rfl⟩ := List.getElem?_eq_some_iff.mp hb
    rw [List.drop_eq_getElem_cons hi, List.dropWhile_cons_of_neg hs]
  | case3 i hb =>
    rw [List.drop_eq_nil_of_le (List.getElem?_eq_none_iff.mp hb)]
    rfl

theorem pastBlank_le {s : Bytes} {i : Nat} (h : i ≤ s.length) : pastBlank s i ≤ s.length := by
  fun_induction pastBlank s i with
  | case1 i b hb hs ih => exact ih (List.getElem?_eq_some_iff.mp hb).1
  | case2 i b hb hs => exact h
  | case3 i hb => exact h

theorem nameStart?_eq_some_iff {head : Bytes} {start : Nat} : nameStart? head = some start ↔
    ∃ found, position? (Utf8.encode "coding") head = some found ∧
      (head[found + (Utf8.encode "coding").length]? = some 61 ∨
        head[found + (Utf8.encode "coding").length]? = some 58) ∧
      pastBlank head (found + (Utf8.encode "coding").length + 1) = start := by
  rw [nameStart?]
  cases position? (Utf8.encode "coding") head with
  | none => simp
  | some found => simp

theorem nameStart?_le {head : Bytes} {start : Nat} (h : nameStart? head = some start) :
    start ≤ head.length := by
  obtain ⟨found, -, hb, rfl⟩ := nameStart?_eq_some_iff.mp h
  refine pastBlank_le ?_
  obtain hb | hb := hb <;> exact (List.getElem?_eq_some_iff.mp hb).1

theorem declaredName?_eq (data : Bytes) :
    declaredName? data = some (Source.declaredName? data) := by
  rw [declaredName?, slice?_head, Source.declaredName?, after?_eq_position, Option.bind_eq_bind,
    Option.bind_some]
  cases hp : position? (Utf8.encode "coding") (head data) with
  | none =>
    rw [nameStart?, hp]
    rfl
  | some found =>
    -- The byte behind the word decides, the first of what is left.
    have hb : ((head data).drop (found + (Utf8.encode "coding").length)).head? =
        (head data)[found + (Utf8.encode "coding").length]? := List.head?_drop
    have hrest : ((head data).drop (found + (Utf8.encode "coding").length)).tail =
        (head data).drop (found + (Utf8.encode "coding").length + 1) := List.tail_drop
    rw [Option.map_some, Option.bind_eq_bind, Option.bind_some]
    cases hd : (head data).drop (found + (Utf8.encode "coding").length) with
    | nil =>
      rw [hd, List.head?_nil] at hb
      simp [nameStart?, hp, ← hb]
    | cons b s =>
      rw [hd, List.head?_cons] at hb
      rw [hd, List.tail_cons] at hrest
      by_cases hs : b = 61 ∨ b = 58
      · have hn : nameStart? (head data) =
            some (pastBlank (head data) (found + (Utf8.encode "coding").length + 1)) :=
          nameStart?_eq_some_iff.mpr ⟨found, hp, by simpa [← hb] using hs, rfl⟩
        have hslice := slice?_rest (nameStart?_le hn)
        rw [drop_pastBlank, ← hrest] at hslice
        simp [hn, hslice, hs]
      · simp [nameStart?, hp, ← hb, hs]

theorem encoding_eq (data : Bytes) : encoding data = some (Source.encoding data) := by
  rw [encoding, declaredName?_eq, Source.encoding]
  cases Source.declaredName? data <;> rfl

theorem isBoundary_mark {data : Bytes} {offset : Nat} (hu : isUtf8 data = true)
    (hb : Utf8.isBoundary data offset = true) (dropsMark : Bool) :
    Utf8.isBoundary data (min (markLength dropsMark data) offset) = true := by
  obtain ⟨s, rfl⟩ := isUtf8_iff.mp hu
  rw [markLength]
  split
  · rename_i hm
    obtain hle | hle := Nat.le_total offset byteOrderMark.length
    · rwa [Nat.min_eq_right hle]
    · rw [Nat.min_eq_left hle]
      cases s with
      | nil => exact absurd hm.2 (by decide)
      | cons c s =>
        obtain rfl := (mark_isPrefixOf c s).mp hm.2
        exact isBoundary_iff.mpr ⟨['\uFEFF'], s, rfl, by decide⟩
  · rw [Nat.zero_min]
    exact isBoundary_iff.mpr ⟨[], s, rfl, rfl⟩

theorem le_length_of_isBoundary {data : Bytes} {offset : Nat} (hu : isUtf8 data = true)
    (hb : Utf8.isBoundary data offset = true) : offset ≤ data.length := by
  obtain ⟨s, rfl⟩ := isUtf8_iff.mp hu
  obtain ⟨t, u, rfl, rfl⟩ := isBoundary_iff.mp hb
  rw [List.flatMap_append, List.length_append]
  exact Nat.le_add_right _ _

theorem characters?_eq {data : Bytes} {offset : Nat} (hu : isUtf8 data = true)
    (hb : Utf8.isBoundary data offset = true) (dropsMark : Bool) :
    characters? data (min (markLength dropsMark data) offset) offset =
      some (charactersBetween data (min (markLength dropsMark data) offset) offset) := by
  have hm := isBoundary_mark hu hb dropsMark
  have hl := le_length_of_isBoundary hu hb
  have hdecode : ∃ s,
      Utf8.decode ((data.take offset).drop (min (markLength dropsMark data) offset)) = some s := by
    obtain ⟨s, rfl⟩ := isUtf8_iff.mp hu
    obtain ⟨t, u, rfl, rfl⟩ := isBoundary_iff.mp hb
    rw [List.flatMap_append, List.take_left, drop_mark]
    exact ⟨_, decode_flatMap_encodeChar _⟩
  obtain ⟨s, hs⟩ := hdecode
  rw [characters?, if_pos ⟨Nat.min_le_right _ _, hm, hb⟩,
    slice?_eq_some_iff.mpr ⟨Nat.min_le_right _ _, hl, rfl⟩, Option.bind_some, charactersBetween, hs]
  rfl

theorem utf8Index_eq {data : Bytes} {offset : Nat} {dropsMark : Bool} (h : offset ≤ data.length)
    (he : Source.encoding data = .utf8 dropsMark) :
    utf8Index data offset dropsMark = some (Source.charIndex data offset) := by
  rw [Source.charIndex, if_neg (Nat.not_lt.mpr h), he, utf8Index]
  dsimp only
  split
  · rw [slice?_front h]
    rfl
  · rename_i hu
    split
    · rfl
    · rename_i hb
      rw [characters?_eq (by simpa using hu) (by simpa using hb)]
      rfl

theorem charIndex_eq (data : Bytes) (offset : Nat) :
    charIndex data offset = some (Source.charIndex data offset) := by
  rw [charIndex]
  split
  · rename_i h
    rw [Source.charIndex, if_pos h]
  · rename_i h
    rw [slice?_front (Nat.le_of_not_lt h), encoding_eq]
    cases he : Source.encoding data with
    | multibyte name =>
      rw [Source.charIndex, if_neg h, he]
      rfl
    | bytewise =>
      rw [Source.charIndex, if_neg h, he]
      rfl
    | utf8 dropsMark => exact utf8Index_eq (Nat.le_of_not_lt h) he

end Checked

theorem length_textOf_le (codec : Option String) (s : List Char) :
    (textOf codec s).length ≤ s.length := by
  unfold textOf
  split
  · cases s with
    | nil => exact Nat.le_refl 0
    | cons c s =>
      rw [withoutMark_cons]
      split <;> simp
  · exact Nat.le_refl _

theorem charIndex_le {data : Bytes} {offset n : Nat} (h : charIndex data offset = .ok n) :
    n ≤ offset := by
  cases charIndex_eq_ok_iff.mp h with
  | @boundary s t hu hd hb =>
    rw [hb]
    calc (unixLines (textOf (codec? data) s)).length
      _ ≤ (textOf (codec? data) s).length := length_unixLines_le _
      _ ≤ s.length := length_textOf_le _ s
      _ ≤ (s.flatMap String.utf8EncodeChar).length := (Reading.utf8 false).length_le_write s
  | bytes hb hm hu =>
    refine (length_unixLines_le _).trans ?_
    rw [bytewise, List.length_map]
    exact List.length_take_le offset data

/-- There is an answer at every offset, and all that is taken for it is there: the head ends within
the file, the scan for a name within the head, and UTF-8 text is read from one character to another,
past the mark or from where it is cut before that. No offset in the text exceeds the one in the
file. -/
theorem charIndex_within (data : Bytes) (offset : Nat) :
    Checked.charIndex data offset = some (charIndex data offset) ∧
      Checked.slice? data 0 (Checked.headEnd data) = some (head data) ∧
      (∀ start, Checked.nameStart? (head data) = some start → start ≤ (head data).length) ∧
      (isUtf8 data = true → Utf8.isBoundary data offset = true → ∀ dropsMark,
        min (markLength dropsMark data) offset ≤ offset ∧ offset ≤ data.length ∧
          Utf8.isBoundary data (min (markLength dropsMark data) offset) = true) ∧
      ∀ n, charIndex data offset = .ok n → n ≤ offset :=
  ⟨Checked.charIndex_eq data offset, Checked.slice?_head data, fun _ => Checked.nameStart?_le,
    fun hu hb dropsMark => ⟨Nat.min_le_right _ _, Checked.le_length_of_isBoundary hu hb,
      Checked.isBoundary_mark hu hb dropsMark⟩,
    fun _ => charIndex_le⟩

end Relocate.Source
