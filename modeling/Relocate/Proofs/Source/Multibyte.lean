import Relocate.Proofs.Source.Declaration
import Relocate.Proofs.Source.Offset

namespace Relocate.Source

open Utf8 (Bytes)

/-- `name` writes `word` with letters of either case, and with `-` and `_` put in anywhere. -/
inductive Spells : List Char → Bytes → Prop
  | nil : Spells [] []
  | hyphen {word : List Char} {b : UInt8} {name : Bytes} (hb : b ∈ Utf8.encode "-_")
    (h : Spells word name) : Spells word (b :: name)
  | letter {word : List Char} {b : UInt8} {name : Bytes} (hb : b ∉ Utf8.encode "-_")
    (h : Spells word name) : Spells ((Char.ofNat b.toNat).toLower :: word) (b :: name)

def letters (codec : String) : List Char := codec.toList.filter (· ≠ '_')

/-- The codecs, UTF-8 apart, in which one character may take several bytes. -/
def multibyteCodecs : List String :=
  ["big5", "big5hkscs", "cp932", "cp949", "cp950", "euc_jp", "euc_jis_2004", "euc_jisx0213", "euc_kr",
    "gb2312", "gbk", "gb18030", "hz", "johab", "shift_jis", "shift_jis_2004", "shift_jisx0213"]

def multibyteStems : List String := ["utf_16", "utf_32", "utf_7", "iso2022"]

inductive NamesMultibyte : List Char → Prop
  | one {codec : String} (h : codec ∈ multibyteCodecs) : NamesMultibyte (letters codec)
  | stem {stem : String} (h : stem ∈ multibyteStems) (rest : List Char) :
    NamesMultibyte (letters stem ++ rest)

/-- The codecs of this kind that are taken for ones of single bytes. -/
def unlistedCodecs : List String :=
  ["euc_jis_2004", "euc_jisx0213", "shift_jis_2004", "shift_jisx0213"]

theorem ofNat_lower : ∀ b, Char.ofNat (lower b).toNat = (Char.ofNat b.toNat).toLower :=
  forall_byte (by decide +kernel)

/-- A name spells what its canonical form says, and nothing else. -/
theorem spells_iff {word : List Char} {name : Bytes} :
    Spells word name ↔ word = (canonicalName name).map fun b => Char.ofNat b.toNat := by
  constructor
  · intro h
    induction h with
    | nil => rfl
    | hyphen hb _ ih =>
      rw [ih, canonicalName, canonicalName, List.filter_cons_of_neg]
      simpa [← or_iff_not_imp_left] using mem_encode_hyphen.mp hb
    | letter hb _ ih =>
      rw [ih, canonicalName, canonicalName, List.filter_cons_of_pos, List.map_cons, List.map_cons,
        ofNat_lower]
      simpa [mem_encode_hyphen] using hb
  · rintro rfl
    induction name with
    | nil => exact .nil
    | cons b name ih =>
      by_cases hb : b ∈ Utf8.encode "-_"
      · rw [canonicalName, List.filter_cons_of_neg]
        · exact .hyphen hb ih
        · simpa [← or_iff_not_imp_left] using mem_encode_hyphen.mp hb
      · rw [canonicalName, List.filter_cons_of_pos, List.map_cons, List.map_cons, ofNat_lower]
        · exact .letter hb ih
        · simpa [mem_encode_hyphen] using hb

theorem encoding_of_spells {data name : Bytes} {word : List Char} (hd : Declares data name)
    (hw : Spells word name) : encoding data = .ofName (String.ofList word) := by
  rw [encoding, declaredName?_eq_some_iff.mpr hd, spells_iff.mp hw]
  rfl

theorem ofName_codec : ∀ codec ∈ multibyteCodecs,
    Encoding.ofName (String.ofList (letters codec)) =
      if letters codec ∈ unlistedCodecs.map letters then .bytewise
      else .multibyte (String.ofList (letters codec)) := by
  decide +kernel

theorem isMultibyte_stem {stem : String} (h : stem ∈ multibyteStems) (rest : List Char) :
    Encoding.isMultibyte (String.ofList (letters stem ++ rest)) = true := by
  have hall : ∀ stem ∈ multibyteStems, ∃ f ∈ Encoding.multibyteFamilies, f.toList = letters stem := by
    decide +kernel
  obtain ⟨f, hf, hs⟩ := hall stem h
  rw [Encoding.isMultibyte, Bool.or_eq_true, List.any_eq_true]
  refine .inl ⟨f, hf, ?_⟩
  rw [String.toList_ofList, hs, List.isPrefixOf_iff_prefix]
  exact List.prefix_append _ _

theorem ne_of_stem {stem name : String} (h : stem ∈ multibyteStems)
    (hn : name ∈ ["utf8", "u8", "utf", "cp65001", "utf8sig"] ++ unlistedCodecs) (rest : List Char) :
    letters stem ++ rest ≠ letters name := by
  have hall : ∀ stem ∈ multibyteStems,
      ∀ name ∈ ["utf8", "u8", "utf", "cp65001", "utf8sig"] ++ unlistedCodecs,
        ¬ letters stem <+: letters name := by
    decide +kernel
  intro he
  exact hall stem h name hn ⟨rest, he⟩

theorem ofName_stem {stem : String} (h : stem ∈ multibyteStems) (rest : List Char) :
    Encoding.ofName (String.ofList (letters stem ++ rest)) =
      .multibyte (String.ofList (letters stem ++ rest)) := by
  have hr : ¬ ReadsUtf8 (some (String.ofList (letters stem ++ rest))) := by
    intro hm
    have hl : ∀ name ∈ ["utf8", "u8", "utf", "cp65001", "utf8sig"], letters name = name.toList := by
      decide +kernel
    apply ne_of_stem h (List.mem_append_left _ hm) rest
    rw [hl _ hm, String.toList_ofList]
  rw [ofName_of_not_readsUtf8 hr, if_pos (isMultibyte_stem h rest)]

theorem ofName_multibyte {word : List Char} (h : NamesMultibyte word) :
    Encoding.ofName (String.ofList word) =
      if word ∈ unlistedCodecs.map letters then .bytewise else .multibyte (String.ofList word) := by
  cases h with
  | one h => exact ofName_codec _ h
  | stem h rest =>
    rw [ofName_stem h, if_neg]
    intro hm
    obtain ⟨name, hn, he⟩ := List.mem_map.mp hm
    exact ne_of_stem h (List.mem_append_right _ hn) rest he.symm

/-- A file that declares a multi-byte codec in any spelling has no character offsets, unless the
codec is one of those that are not listed: their bytes are counted. -/
theorem multibyte_refused {data name : Bytes} {word : List Char} {b : Nat} (hd : Declares data name)
    (hw : Spells word name) (hm : NamesMultibyte word) (hb : b ≤ data.length) :
    (word ∉ unlistedCodecs.map letters →
      (charIndex data b).mapError OffsetError.failure = .error (.invalidArguments
        s!"byte offsets in {String.ofList word}-encoded files are not supported")) ∧
    (word ∈ unlistedCodecs.map letters →
      charIndex data b = .ok (unixLines (bytewise (data.take b))).length) := by
  have he := encoding_of_spells hd hw
  rw [ofName_multibyte hm] at he
  constructor
  · intro hu
    rw [if_neg hu] at he
    rw [charIndex, if_neg (Nat.not_lt.mpr hb), he]
    rfl
  · intro hu
    rw [if_pos hu] at he
    exact charIndex_bytes hb (.inl he)

theorem multibyte_refused_shiftJis :
    Declares (Utf8.encode "# -*- coding: Shift-JIS -*-\nx = 1\n") (Utf8.encode "Shift-JIS") ∧
      Spells (letters "shift_jis") (Utf8.encode "Shift-JIS") ∧
      NamesMultibyte (letters "shift_jis") ∧
      30 ≤ (Utf8.encode "# -*- coding: Shift-JIS -*-\nx = 1\n").length ∧
      letters "shift_jis" ∉ unlistedCodecs.map letters ∧
      (charIndex (Utf8.encode "# -*- coding: Shift-JIS -*-\nx = 1\n") 30).mapError
        OffsetError.failure =
          .error (.invalidArguments "byte offsets in shiftjis-encoded files are not supported") := by
  have hd : Declares (Utf8.encode "# -*- coding: Shift-JIS -*-\nx = 1\n") (Utf8.encode "Shift-JIS") :=
    declaredName?_eq_some_iff.mp (by decide +kernel)
  have hw : Spells (letters "shift_jis") (Utf8.encode "Shift-JIS") := spells_iff.mpr (by decide +kernel)
  have hm : NamesMultibyte (letters "shift_jis") := .one (by decide)
  have hb : 30 ≤ (Utf8.encode "# -*- coding: Shift-JIS -*-\nx = 1\n").length := by decide +kernel
  have hu : letters "shift_jis" ∉ unlistedCodecs.map letters := by decide +kernel
  refine ⟨hd, hw, hm, hb, hu, ?_⟩
  exact (multibyte_refused hd hw hm hb).1 hu

/-- Shift JIS of 2004 is not listed, and what it declares is counted. -/
theorem shiftJis2004_counted :
    Declares (Utf8.encode "# coding: shift_jis_2004\nx = 1\n") (Utf8.encode "shift_jis_2004") ∧
      Spells (letters "shift_jis_2004") (Utf8.encode "shift_jis_2004") ∧
      NamesMultibyte (letters "shift_jis_2004") ∧
      25 ≤ (Utf8.encode "# coding: shift_jis_2004\nx = 1\n").length ∧
      charIndex (Utf8.encode "# coding: shift_jis_2004\nx = 1\n") 25 = .ok 25 := by
  have hd : Declares (Utf8.encode "# coding: shift_jis_2004\nx = 1\n")
      (Utf8.encode "shift_jis_2004") :=
    declaredName?_eq_some_iff.mp (by decide +kernel)
  have hw : Spells (letters "shift_jis_2004") (Utf8.encode "shift_jis_2004") :=
    spells_iff.mpr (by decide +kernel)
  exact ⟨hd, hw, .one (by decide), by decide +kernel, by decide +kernel⟩

end Relocate.Source
