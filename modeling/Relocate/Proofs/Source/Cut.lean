import Relocate.Proofs.Source.Reading

namespace Relocate.Source

open Utf8 (Bytes decode_flatMap_encodeChar)

/-- A file whose bytes before `b` are the characters `t`, and the others `u`. -/
structure Reading.Cuts (r : Reading) (data : Bytes) (b : Nat) (t u : List Char) : Prop where
  read : IsRead data r
  characters : r.characters? data = some (t ++ u)
  size : (t.flatMap r.write).length = b

def EndsPair (data : Bytes) (b : Nat) : Prop :=
  ∃ i, b = i + 1 ∧ data[i]? = some 13 ∧ data[i + 1]? = some 10

/-- The file begins with a mark that is no part of its text. -/
def DropsMark (data : Bytes) : Prop :=
  codec? data = some "utf8sig" ∧ ∃ s : List Char, data = ('\uFEFF' :: s).flatMap String.utf8EncodeChar

theorem endsPair_append {s t : Bytes} :
    EndsPair (s ++ t) s.length ↔ s.getLast? = some 13 ∧ t.head? = some 10 := by
  obtain rfl | ⟨s, b, rfl⟩ := List.eq_nil_or_concat' s
  · simp [EndsPair]
  have hl : (s ++ [b]).length = s.length + 1 := List.length_append
  have h13 : (s ++ [b] ++ t)[s.length]? = some b := by simp
  have h10 : (s ++ [b] ++ t)[s.length + 1]? = t.head? := by
    rw [← hl, List.getElem?_append_right (Nat.le_refl _), Nat.sub_self, List.head?_eq_getElem?]
  rw [List.getLast?_concat]
  constructor
  · rintro ⟨i, hi, h1, h2⟩
    obtain rfl : s.length = i := by omega
    exact ⟨h13.symm.trans h1, h10.symm.trans h2⟩
  · rintro ⟨h1, h2⟩
    exact ⟨s.length, hl, h13.trans h1, h10.trans h2⟩

theorem exists_isRead {data : Bytes}
    (hm : ∀ name, codec? data = some name → Encoding.isMultibyte name = false) :
    ∃ r s, IsRead data r ∧ r.characters? data = some s := by
  by_cases hu : ReadsUtf8 (codec? data) ∧ ∃ s : List Char, data = s.flatMap String.utf8EncodeChar
  · obtain ⟨hr, s, hs⟩ := hu
    refine ⟨_, s, .utf8 hr hs, ?_⟩
    rw [hs]
    exact decode_flatMap_encodeChar s
  · refine ⟨.latin1, bytewise data, .latin1 hm fun hr s hs => hu ⟨hr, s, hs⟩, rfl⟩

theorem charIndex_eq_ok_iff {data : Bytes} {b n : Nat} :
    charIndex data b = .ok n ↔ Denotes data b (.ok n) := by
  constructor
  · intro h
    have hd := denotes_charIndex data b
    rwa [h] at hd
  · intro h
    have he := h.eq_charIndex
    cases hc : charIndex data b with
    | error e =>
      rw [hc] at he
      cases he
    | ok m =>
      rw [hc] at he
      exact congrArg Except.ok (Except.ok.inj he)

theorem text_utf8 (data : Bytes) (s : List Char) :
    (Reading.utf8 (codec? data = some "utf8sig")).text s = unixLines (textOf (codec? data) s) := by
  simp [Reading.text, textOf]

theorem Reading.Cuts.charIndex {r : Reading} {data : Bytes} {b : Nat} {t u : List Char}
    (h : r.Cuts data b t u) : charIndex data b = .ok (r.text t).length := by
  obtain ⟨hr, hs, hb⟩ := h
  obtain ⟨hd, hh⟩ := characters?_eq_some.mp hs
  rw [List.flatMap_append] at hd
  rw [charIndex_eq_ok_iff]
  cases hr with
  | utf8 hu _ =>
    rw [text_utf8]
    exact .boundary hu hd hb.symm
  | latin1 hm hu =>
    have ht : bytewise (data.take b) = t := by
      rw [hd, ← hb, List.take_left]
      exact bytewise_write fun c hc => hh c (List.mem_append_left u hc)
    have hl : b ≤ data.length := by
      rw [hd, ← hb, List.length_append]
      omega
    have hn := Denotes.bytes hl hm hu
    rwa [ht] at hn

/-- A byte offset that has a character offset cuts the file. -/
theorem exists_cuts {r : Reading} {data : Bytes} {b n : Nat} (hr : IsRead data r)
    (h : charIndex data b = .ok n) : ∃ t u, r.Cuts data b t u ∧ (r.text t).length = n := by
  have hcut : ∃ t u, r.Cuts data b t u := by
    cases charIndex_eq_ok_iff.mp h with
    | @boundary s t hu hd hb =>
      cases hr with
      | latin1 _ hn => exact absurd (by rw [List.flatMap_append]; exact hd) (hn hu (s ++ t))
      | utf8 hu' hd' =>
        refine ⟨s, t, .utf8 hu' hd', ?_, hb.symm⟩
        rw [hd, ← List.flatMap_append]
        exact decode_flatMap_encodeChar (s ++ t)
    | bytes hb hm hn =>
      cases hr with
      | utf8 hu hd => exact absurd hd (hn hu _)
      | latin1 hm' hn' =>
        refine ⟨bytewise (data.take b), bytewise (data.drop b), .latin1 hm' hn', ?_, ?_⟩
        · rw [bytewise, bytewise, ← List.map_append, List.take_append_drop]
          rfl
        · rw [Reading.write_bytewise, List.length_take_of_le hb]
  obtain ⟨t, u, hc⟩ := hcut
  exact ⟨t, u, hc, Except.ok.inj (hc.charIndex.symm.trans h)⟩

namespace Reading.Cuts

variable {r : Reading} {data : Bytes} {b : Nat} {t u : List Char}

theorem data_eq (h : r.Cuts data b t u) : data = t.flatMap r.write ++ u.flatMap r.write := by
  rw [← List.flatMap_append]
  exact (characters?_eq_some.mp h.characters).1

theorem has (h : r.Cuts data b t u) : ∀ c ∈ t ++ u, r.Has c :=
  (characters?_eq_some.mp h.characters).2

theorem take (h : r.Cuts data b t u) : r.characters? (data.take b) = some t := by
  rw [characters?_eq_some]
  refine ⟨?_, fun c hc => h.has c (List.mem_append_left u hc)⟩
  rw [h.data_eq, ← h.size, List.take_left]

theorem drop (h : r.Cuts data b t u) : r.characters? (data.drop b) = some u := by
  rw [characters?_eq_some]
  refine ⟨?_, fun c hc => h.has c (List.mem_append_right t hc)⟩
  rw [h.data_eq, ← h.size, List.drop_left]

theorem endsPair_iff {c : Char} (h : r.Cuts data b t (c :: u)) :
    EndsPair data b ↔ t.getLast? = some '\r' ∧ c = '\n' := by
  have hc : r.Has c := h.has c (List.mem_append_right t List.mem_cons_self)
  have ht : ∀ c ∈ t, r.Has c := fun c hc => h.has c (List.mem_append_left _ hc)
  rw [h.data_eq, ← h.size, endsPair_append, head?_write_eq_feed hc, getLast?_write_eq_return ht]

theorem dropsMark_iff {c : Char} (h : r.Cuts data b t (c :: u)) :
    b = 0 ∧ DropsMark data ↔ r = .utf8 true ∧ t = [] ∧ c = '\uFEFF' := by
  obtain ⟨hr, hs, hb⟩ := h
  constructor
  · rintro ⟨h0, hc, s, hd⟩
    obtain rfl : t = [] := write_eq_nil (hb.trans h0)
    cases hr with
    | utf8 hu _ =>
      have hm : some (c :: u) = some ('\uFEFF' :: s) := by
        rw [← decode_flatMap_encodeChar ('\uFEFF' :: s), ← hd]
        exact hs.symm
      exact ⟨by rw [hc]; rfl, rfl, (List.cons.inj (Option.some.inj hm)).1⟩
    | latin1 _ hu =>
      refine absurd hd (hu ?_ _)
      rw [hc]
      exact List.mem_append_right ["utf8", "u8", "utf", "cp65001"] List.mem_cons_self
  · rintro ⟨rfl, rfl, rfl⟩
    refine ⟨hb.symm, ?_, u, (characters?_eq_some.mp hs).1⟩
    generalize hq : Reading.utf8 true = q at hr
    cases hr with
    | utf8 _ _ => exact of_decide_eq_true (Reading.utf8.inj hq).symm
    | latin1 _ _ => cases hq

theorem skips_iff {c : Char} (h : r.Cuts data b t (c :: u)) :
    r.Skips t c ↔ EndsPair data b ∨ b = 0 ∧ DropsMark data := by
  rw [Skips, h.endsPair_iff, h.dropsMark_iff]

end Reading.Cuts
end Relocate.Source
