import Relocate.Proofs.Text.Utf8Sound
import Relocate.Source.CharIndex

namespace Relocate.Source

open Utf8 (Bytes decode_eq_some_iff decode_flatMap_encodeChar decode_encodeChar isBoundary_iff)

def joinPairs : List Char → List Char
  | [] => []
  | '\r' :: '\n' :: s => '\n' :: joinPairs s
  | c :: s => c :: joinPairs s

/-- A text with line feeds for all line ends: first the pairs are joined, then each carriage return
that is left becomes a line feed. -/
def unixLines (s : List Char) : List Char := (joinPairs s).map fun c => if c = '\r' then '\n' else c

theorem joinPairs_cons {c : Char} {s : List Char} (h : c = '\r' → s.head? ≠ some '\n') :
    joinPairs (c :: s) = c :: joinPairs s := by
  rw [joinPairs]
  rintro s' rfl rfl
  exact h rfl rfl

/-- The count in one pass is the length after two. -/
theorem count_eq_length (s : List Char) :
    count false s = (joinPairs s).length ∧ count true s + 1 = (joinPairs ('\r' :: s)).length := by
  induction s with
  | nil => exact ⟨rfl, rfl⟩
  | cons c s ih =>
    obtain ⟨hf, ht⟩ := ih
    have hc : count false (c :: s) = (joinPairs (c :: s)).length := by
      by_cases hr : c = '\r'
      · subst hr
        rw [← ht, count, Nat.add_comm]
        simp
      · rw [joinPairs_cons (absurd · hr), List.length_cons, ← hf, count, Nat.add_comm]
        simp [hr]
    refine ⟨hc, ?_⟩
    by_cases hn : c = '\n'
    · subst hn
      rw [joinPairs, List.length_cons, ← hf, count]
      simp
    · rw [joinPairs_cons (by simpa using hn), List.length_cons, ← hc, count, count]
      simp [hn]

theorem length_unixLines (s : List Char) : (unixLines s).length = count false s := by
  rw [unixLines, List.length_map, (count_eq_length s).1]

def codec? (data : Bytes) : Option String :=
  (declaredName? data).map fun name => nameText (canonicalName name)

/-- Whether a file is to be read as UTF-8: it says so, or says nothing. -/
def ReadsUtf8 : Option String → Prop
  | none => True
  | some name => name ∈ ["utf8", "u8", "utf", "cp65001", "utf8sig"]

def withoutMark : List Char → List Char
  | '\uFEFF' :: s => s
  | s => s

theorem withoutMark_cons (c : Char) (s : List Char) :
    withoutMark (c :: s) = if c = '\uFEFF' then s else c :: s := by
  by_cases hc : c = '\uFEFF'
  · rw [hc]
    rfl
  · rw [if_neg hc, withoutMark]
    intro s' he
    exact hc (List.cons.inj he).1

def textOf (codec : Option String) (s : List Char) : List Char :=
  if codec = some "utf8sig" then withoutMark s else s

/-- The character offset that a byte offset stands for, or why there is none. -/
inductive Denotes (data : Bytes) (b : Nat) : Except Failure Nat → Prop
  | pastEnd (h : data.length < b) : Denotes data b (.error (.invalidArguments
      s!"offset {b} is past end of file ({data.length} bytes)"))
  | multibyte {name : String} (hb : b ≤ data.length) (hc : codec? data = some name)
    (hm : Encoding.isMultibyte name = true) : Denotes data b (.error (.invalidArguments
      s!"byte offsets in {name}-encoded files are not supported"))
  | boundary {s t : List Char} (hu : ReadsUtf8 (codec? data))
    (hd : data = s.flatMap String.utf8EncodeChar ++ t.flatMap String.utf8EncodeChar)
    (hb : b = (s.flatMap String.utf8EncodeChar).length) :
    Denotes data b (.ok (unixLines (textOf (codec? data) s)).length)
  | inside {s : List Char} (hb : b ≤ data.length) (hu : ReadsUtf8 (codec? data))
    (hd : data = s.flatMap String.utf8EncodeChar)
    (hn : ∀ t u, s = t ++ u → (t.flatMap String.utf8EncodeChar).length ≠ b) :
    Denotes data b (.error (.invalidArguments s!"offset {b} falls inside a multi-byte character"))
  | bytes (hb : b ≤ data.length)
    (hm : ∀ name, codec? data = some name → Encoding.isMultibyte name = false)
    (hu : ReadsUtf8 (codec? data) → ∀ s : List Char, data ≠ s.flatMap String.utf8EncodeChar) :
    Denotes data b (.ok (unixLines (bytewise (data.take b))).length)

theorem not_multibyte {name : String} (h : ReadsUtf8 (some name)) :
    Encoding.isMultibyte name = false := by
  have hall : ∀ n ∈ ["utf8", "u8", "utf", "cp65001", "utf8sig"], Encoding.isMultibyte n = false := by
    decide +kernel
  exact hall name h

theorem ofName_of_readsUtf8 {name : String} (h : ReadsUtf8 (some name)) :
    Encoding.ofName name = .utf8 (name = "utf8sig") := by
  have hall : ∀ n ∈ ["utf8", "u8", "utf", "cp65001", "utf8sig"],
      Encoding.ofName n = .utf8 (n = "utf8sig") := by
    decide +kernel
  exact hall name h

theorem ofName_of_not_readsUtf8 {name : String} (h : ¬ ReadsUtf8 (some name)) :
    Encoding.ofName name = if Encoding.isMultibyte name then .multibyte name else .bytewise := by
  have h8 : Encoding.utf8Names.contains name = false := by
    rw [← Bool.not_eq_true, List.contains_iff_mem]
    intro hm
    exact h (List.mem_append_left ["utf8sig"] hm)
  have hs : name ≠ "utf8sig" := by
    rintro rfl
    exact h (by simp [ReadsUtf8])
  rw [Encoding.ofName, h8, if_neg Bool.false_ne_true, if_neg hs]

theorem encoding_cases (data : Bytes) :
    (∃ name, codec? data = some name ∧ Encoding.isMultibyte name = true ∧
        encoding data = .multibyte name) ∨
      (∀ name, codec? data = some name → Encoding.isMultibyte name = false) ∧
        (ReadsUtf8 (codec? data) ∧ encoding data = .utf8 (codec? data = some "utf8sig") ∨
          ¬ ReadsUtf8 (codec? data) ∧ encoding data = .bytewise) := by
  have he : encoding data = match codec? data with
      | none => .utf8 false
      | some name => .ofName name := by
    unfold encoding codec?
    cases declaredName? data <;> rfl
  rw [he]
  cases codec? data with
  | none => exact .inr ⟨nofun, .inl ⟨trivial, rfl⟩⟩
  | some name =>
    by_cases h8 : ReadsUtf8 (some name)
    · refine .inr ⟨?_, .inl ⟨h8, ?_⟩⟩
      · rintro _ ⟨⟩
        exact not_multibyte h8
      · simpa using ofName_of_readsUtf8 h8
    · simp only [ofName_of_not_readsUtf8 h8]
      by_cases hm : Encoding.isMultibyte name = true
      · exact .inl ⟨name, rfl, hm, if_pos hm⟩
      · refine .inr ⟨?_, .inr ⟨h8, if_neg hm⟩⟩
        rintro _ ⟨⟩
        exact Bool.not_eq_true _ |>.mp hm

theorem isUtf8_iff {data : Bytes} :
    isUtf8 data = true ↔ ∃ s : List Char, data = s.flatMap String.utf8EncodeChar := by
  rw [isUtf8, Option.isSome_iff_exists]
  exact exists_congr fun s => decode_eq_some_iff

theorem encode_mark : String.utf8EncodeChar '\uFEFF' = byteOrderMark := by decide

theorem mark_isPrefixOf (c : Char) (s : List Char) :
    byteOrderMark.isPrefixOf ((c :: s).flatMap String.utf8EncodeChar) = true ↔ c = '\uFEFF' := by
  rw [List.isPrefixOf_iff_prefix]
  constructor
  · rintro ⟨rest, hr⟩
    have hd := decode_flatMap_encodeChar (c :: s)
    rw [← hr, ← encode_mark, decode_encodeChar] at hd
    obtain ⟨s', -, hs⟩ := Option.map_eq_some_iff.mp hd
    exact (List.cons.inj hs).1.symm
  · rintro rfl
    rw [List.flatMap_cons, encode_mark]
    exact List.prefix_append _ _

theorem drop_mark (drops : Bool) (s t : List Char) :
    (s.flatMap String.utf8EncodeChar).drop
      (min (markLength drops (s.flatMap String.utf8EncodeChar ++ t.flatMap String.utf8EncodeChar))
        (s.flatMap String.utf8EncodeChar).length) =
      (if drops then withoutMark s else s).flatMap String.utf8EncodeChar := by
  cases drops with
  | false => simp [markLength]
  | true =>
    cases s with
    | nil => simp [withoutMark]
    | cons c s =>
      rw [← List.flatMap_append, List.cons_append, markLength]
      by_cases hc : c = '\uFEFF'
      · subst hc
        rw [if_pos ⟨rfl, (mark_isPrefixOf _ _).mpr rfl⟩, List.flatMap_cons, encode_mark]
        simp [withoutMark, byteOrderMark]
      · rw [if_neg fun h => hc ((mark_isPrefixOf _ _).mp h.2)]
        simp [withoutMark_cons, hc]

theorem charIndex_boundary {data : Bytes} {s t : List Char}
    (hd : data = s.flatMap String.utf8EncodeChar ++ t.flatMap String.utf8EncodeChar)
    (he : encoding data = .utf8 (codec? data = some "utf8sig")) :
    charIndex data (s.flatMap String.utf8EncodeChar).length =
      .ok (unixLines (textOf (codec? data) s)).length := by
  have hu : isUtf8 data = true := isUtf8_iff.mpr ⟨s ++ t, by rw [hd, List.flatMap_append]⟩
  have hb : Utf8.isBoundary data (s.flatMap String.utf8EncodeChar).length = true := by
    rw [hd, ← List.flatMap_append]
    exact isBoundary_iff.mpr ⟨s, t, rfl, rfl⟩
  have hl : ¬ data.length < (s.flatMap String.utf8EncodeChar).length := by
    rw [hd, List.length_append]
    omega
  rw [charIndex, if_neg hl, he]
  simp only [hu, hb, Bool.not_true, Bool.false_eq_true, ↓reduceIte]
  rw [length_unixLines, charactersBetween, hd, List.take_left, drop_mark, decode_flatMap_encodeChar,
    Option.getD_some, textOf]
  simp only [decide_eq_true_eq]

theorem charIndex_inside {data : Bytes} {b : Nat} {drops : Bool} {s : List Char}
    (hl : b ≤ data.length) (he : encoding data = .utf8 drops)
    (hd : data = s.flatMap String.utf8EncodeChar)
    (hn : ∀ t u, s = t ++ u → (t.flatMap String.utf8EncodeChar).length ≠ b) :
    charIndex data b = .error (.insideCharacter b) := by
  have hu : isUtf8 data = true := isUtf8_iff.mpr ⟨s, hd⟩
  have hb : Utf8.isBoundary data b = false := by
    rw [← Bool.not_eq_true, hd, isBoundary_iff]
    rintro ⟨t, u, hs, ht⟩
    exact hn t u hs ht
  rw [charIndex, if_neg (Nat.not_lt.mpr hl), he]
  simp [hu, hb]

theorem charIndex_bytes {data : Bytes} {b : Nat} (hl : b ≤ data.length)
    (he : encoding data = .bytewise ∨ ∃ drops, encoding data = .utf8 drops ∧ isUtf8 data = false) :
    charIndex data b = .ok (unixLines (bytewise (data.take b))).length := by
  rw [charIndex, if_neg (Nat.not_lt.mpr hl), length_unixLines]
  obtain he | ⟨drops, he, hu⟩ := he
  · rw [he]
  · rw [he]
    simp [hu]

theorem encoding_of_readsUtf8 {data : Bytes} (h : ReadsUtf8 (codec? data)) :
    encoding data = .utf8 (codec? data = some "utf8sig") := by
  obtain ⟨name, hc, hm, -⟩ | ⟨-, ⟨-, he⟩ | ⟨hn, -⟩⟩ := encoding_cases data
  · rw [hc] at h
    rw [not_multibyte h] at hm
    cases hm
  · exact he
  · exact absurd h hn

theorem denotes_charIndex (data : Bytes) (b : Nat) :
    Denotes data b ((charIndex data b).mapError OffsetError.failure) := by
  by_cases hb : data.length < b
  · rw [charIndex, if_pos hb]
    exact .pastEnd hb
  have hl : b ≤ data.length := Nat.le_of_not_lt hb
  obtain ⟨name, hc, hm, he⟩ | ⟨hm, ⟨hr, he⟩ | ⟨hr, he⟩⟩ := encoding_cases data
  · rw [charIndex, if_neg hb, he]
    exact .multibyte hl hc hm
  · cases hu : isUtf8 data with
    | false =>
      rw [charIndex_bytes hl (.inr ⟨_, he, hu⟩)]
      refine .bytes hl hm fun _ s hs => ?_
      rw [isUtf8_iff.mpr ⟨s, hs⟩] at hu
      cases hu
    | true =>
      obtain ⟨s, hs⟩ := isUtf8_iff.mp hu
      by_cases hc : ∃ t u, s = t ++ u ∧ (t.flatMap String.utf8EncodeChar).length = b
      · obtain ⟨t, u, rfl, rfl⟩ := hc
        rw [List.flatMap_append] at hs
        rw [charIndex_boundary hs he]
        exact .boundary hr hs rfl
      · rw [charIndex_inside hl he hs fun t u h ht => hc ⟨t, u, h, ht⟩]
        exact .inside hl hr hs fun t u h ht => hc ⟨t, u, h, ht⟩
  · rw [charIndex_bytes hl (.inl he)]
    exact .bytes hl hm fun h => absurd h hr

theorem Denotes.eq_charIndex {data : Bytes} {b : Nat} {r : Except Failure Nat}
    (h : Denotes data b r) : (charIndex data b).mapError OffsetError.failure = r := by
  cases h with
  | pastEnd h =>
    rw [charIndex, if_pos h]
    rfl
  | @multibyte name hb hc hm =>
    obtain ⟨name', hc', -, he⟩ | ⟨hn, -⟩ := encoding_cases data
    · obtain rfl : name' = name := Option.some.inj (hc'.symm.trans hc)
      rw [charIndex, if_neg (Nat.not_lt.mpr hb), he]
      rfl
    · rw [hn name hc] at hm
      cases hm
  | @boundary s t hu hd hb =>
    rw [hb, charIndex_boundary hd (encoding_of_readsUtf8 hu)]
    rfl
  | inside hb hu hd hn =>
    rw [charIndex_inside hb (encoding_of_readsUtf8 hu) hd hn]
    rfl
  | bytes hb hm hu =>
    rw [charIndex_bytes hb]
    · rfl
    obtain ⟨name, hc, hm', -⟩ | ⟨-, ⟨hr, he⟩ | ⟨-, he⟩⟩ := encoding_cases data
    · rw [hm name hc] at hm'
      cases hm'
    · refine .inr ⟨_, he, ?_⟩
      rw [← Bool.not_eq_true, isUtf8_iff]
      rintro ⟨s, hs⟩
      exact hu hr s hs
    · exact .inl he

/-- The character offset of a byte offset is the one that the decoded text with its line ends made
one defines, and it is refused just where there is none. -/
theorem charIndex_iff_denotes (data : Bytes) (b : Nat) (r : Except Failure Nat) :
    (charIndex data b).mapError OffsetError.failure = r ↔ Denotes data b r := by
  constructor
  · rintro rfl
    exact denotes_charIndex data b
  · exact Denotes.eq_charIndex

end Relocate.Source
