import Relocate.Proofs.Source.Cut

namespace Relocate.Source

open Utf8 (Bytes)

namespace Reading.Cuts

variable {r : Reading} {data : Bytes} {b b' : Nat} {t t' u u' : List Char}

theorem text_return (h : r.Cuts data b t u) (hp : EndsPair data b) (hu : u ≠ []) :
    ∃ p, r.text t = p ++ ['\n'] := by
  obtain ⟨c, v, rfl⟩ := List.exists_cons_of_ne_nil hu
  obtain ⟨hl, -⟩ := h.endsPair_iff.mp hp
  obtain ⟨a, rfl⟩ := List.getLast?_eq_some_iff.mp hl
  have hs : ¬ r.Skips a '\r' := by simp [Skips]
  rw [text_append, placed, if_neg hs]
  exact ⟨r.text a, rfl⟩

theorem between (h : r.Cuts data b t u) (h' : r.Cuts data b' t' u') (hb : b ≤ b') :
    ∃ m, t' = t ++ m ∧ u = m ++ u' ∧ b' = b + (m.flatMap r.write).length := by
  have he : t ++ u = t' ++ u' := Option.some.inj (h.characters.symm.trans h'.characters)
  obtain ⟨m, rfl, rfl⟩ | ⟨m, rfl, rfl⟩ := List.append_eq_append_iff.mp he
  · refine ⟨m, rfl, rfl, ?_⟩
    rw [← h.size, ← h'.size, List.flatMap_append, List.length_append]
  · have hm := h.size
    rw [List.flatMap_append, List.length_append, h'.size] at hm
    obtain rfl : m = [] := r.write_eq_nil (by omega)
    exact ⟨[], by simp, rfl, by simpa using hm⟩

theorem placed_eq_nil_iff {m : List Char} (h : r.Cuts data b t (m ++ u))
    (hm : b' = b + (m.flatMap r.write).length) (hb : b < b') :
    r.placed t m = [] ↔ b' = b + 1 ∧ EndsPair data b ∨ b = 0 ∧ b' = 3 ∧ DropsMark data := by
  obtain ⟨c, v, rfl⟩ : ∃ c v, m = c :: v := by
    apply List.exists_cons_of_ne_nil
    rintro rfl
    rw [List.flatMap_nil, List.length_nil] at hm
    omega
  have hv : v = [] ↔ b' = b + (r.write c).length := by
    rw [List.flatMap_cons, List.length_append] at hm
    constructor
    · rintro rfl
      exact hm
    · intro he
      exact r.write_eq_nil (by omega)
  have hp : r.placed t (c :: v) = [] ↔ v = [] ∧ (EndsPair data b ∨ b = 0 ∧ DropsMark data) := by
    rw [placed_eq_nil, ← h.skips_iff]
    simp
  rw [hp, hv]
  constructor
  · rintro ⟨hl, he | hd⟩
    · obtain ⟨-, rfl⟩ := h.endsPair_iff.mp he
      rw [r.write_feed] at hl
      exact .inl ⟨hl, he⟩
    · obtain ⟨rfl, -, rfl⟩ := h.dropsMark_iff.mp hd
      have h3 : b' = b + 3 := hl
      exact .inr ⟨hd.1, by omega, hd.2⟩
  · rintro (⟨hl, he⟩ | ⟨h0, h3, hd⟩)
    · obtain ⟨-, rfl⟩ := h.endsPair_iff.mp he
      rw [r.write_feed]
      exact ⟨hl, .inl he⟩
    · obtain ⟨rfl, -, rfl⟩ := h.dropsMark_iff.mp ⟨h0, hd⟩
      have hl : b' = b + ((Reading.utf8 true).write '\uFEFF').length := by
        rw [h0, h3]
        rfl
      exact ⟨hl, .inr ⟨h0, hd⟩⟩

end Reading.Cuts

/-- A character offset is a position of the text of the whole file: what comes before is the text of
the bytes before, and at it stands the character that begins there. A line feed of a pair has the
line end in front of it, and a mark that is dropped has nothing. -/
theorem charIndex_points {data : Bytes} {r : Reading} {s : List Char} {b n : Nat}
    (hr : IsRead data r) (hs : r.characters? data = some s) (hn : charIndex data b = .ok n) :
    (∃ t, r.characters? (data.take b) = some t ∧ r.text t = (r.text s).take n ∧
        n ≤ (r.text s).length) ∧
      (b < data.length → ∃ c u, r.characters? (data.drop b) = some (c :: u) ∧
        (¬ EndsPair data b → ¬ (b = 0 ∧ DropsMark data) → (r.text s)[n]? = some (unixEnd c)) ∧
        (EndsPair data b → ∃ m, n = m + 1 ∧ (r.text s)[m]? = some '\n')) := by
  obtain ⟨t, u, h, rfl⟩ := exists_cuts hr hn
  obtain rfl : s = t ++ u := Option.some.inj (hs.symm.trans h.characters)
  rw [Reading.text_append]
  constructor
  · refine ⟨t, h.take, List.take_left.symm, ?_⟩
    rw [List.length_append]
    omega
  intro hb
  have hu : u ≠ [] := by
    rintro rfl
    rw [h.data_eq, ← h.size, List.flatMap_nil, List.append_nil] at hb
    exact Nat.lt_irrefl _ hb
  obtain ⟨c, v, rfl⟩ := List.exists_cons_of_ne_nil hu
  refine ⟨c, v, h.drop, fun hp hm => ?_, fun hp => ?_⟩
  · have hk : ¬ r.Skips t c := fun hk => (h.skips_iff.mp hk).elim hp hm
    obtain ⟨rest, hl⟩ := unixLines_starts c v
    rw [Reading.placed, if_neg hk, hl, List.getElem?_append_right (Nat.le_refl _), Nat.sub_self]
    rfl
  · obtain ⟨p, ht⟩ := h.text_return hp hu
    refine ⟨p.length, by rw [ht, List.length_append]; rfl, ?_⟩
    rw [ht, List.append_assoc, List.getElem?_append_right (Nat.le_refl _), Nat.sub_self]
    rfl

def signed : List Char := '\uFEFF' :: "# coding: utf-8-sig\r\n\u00e9 = 1\r".toList

def signedSource : Bytes := signed.flatMap String.utf8EncodeChar

theorem codec?_signed : codec? signedSource = some "utf8sig" := by decide +kernel

theorem isRead_signed : IsRead signedSource (.utf8 true) := by
  have h : IsRead signedSource (.utf8 (codec? signedSource = some "utf8sig")) :=
    .utf8 (by rw [codec?_signed]; exact List.mem_append_right ["utf8", "u8", "utf", "cp65001"] (.head _))
      rfl
  simpa [codec?_signed] using h

theorem charIndex_points_signed :
    IsRead signedSource (.utf8 true) ∧
      (Reading.utf8 true).characters? signedSource = some signed ∧
      charIndex signedSource 24 = .ok 20 ∧ 24 < signedSource.length ∧
      ((Reading.utf8 true).text signed)[20]? = some '\u00e9' := by
  have hs : (Reading.utf8 true).characters? signedSource = some signed :=
    Utf8.decode_flatMap_encodeChar signed
  have hc : (Reading.utf8 true).Cuts signedSource 24 (signed.take 22) (signed.drop 22) :=
    ⟨isRead_signed, by rw [List.take_append_drop]; exact hs, by decide +kernel⟩
  have hn : charIndex signedSource 24 = .ok 20 := by
    rw [hc.charIndex]
    decide +kernel
  have hl : 24 < signedSource.length := by decide +kernel
  obtain ⟨-, hp⟩ := charIndex_points isRead_signed hs hn
  obtain ⟨c, u, hd, hk, -⟩ := hp hl
  obtain ⟨rfl, rfl⟩ : '\u00e9' = c ∧ signed.drop 23 = u :=
    List.cons.inj (Option.some.inj (hc.drop.symm.trans hd))
  refine ⟨isRead_signed, hs, hn, hl, hk (fun he => ?_) (by omega)⟩
  have hr := (hc.endsPair_iff.mp he).1
  revert hr
  decide +kernel

/-- How the byte offsets of a file are taken to the positions of a text of length `size`. -/
structure Indexing (data : Bytes) (size : Nat) : Prop where
  first : charIndex data 0 = .ok 0
  last : charIndex data data.length = .ok size
  steps : ∀ {b b' n n'}, b ≤ b' → charIndex data b = .ok n → charIndex data b' = .ok n' →
    n ≤ n' ∧ n' - n ≤ b' - b
  onto : ∀ k ≤ size, ∃ b, charIndex data b = .ok k
  fibres : ∀ {b b' n n'}, b < b' → charIndex data b = .ok n → charIndex data b' = .ok n' →
    (n = n' ↔ b' = b + 1 ∧ EndsPair data b ∨ b = 0 ∧ b' = 3 ∧ DropsMark data)

theorem exists_indexing {data : Bytes}
    (hm : ∀ name, codec? data = some name → Encoding.isMultibyte name = false) :
    ∃ size, Indexing data size := by
  obtain ⟨r, s, hr, hs⟩ := exists_isRead hm
  have cuts {b n : Nat} (hn : charIndex data b = .ok n) :
      ∃ t u, r.Cuts data b t u ∧ (r.text t).length = n := exists_cuts hr hn
  have hw := (Reading.characters?_eq_some.mp hs).1
  have first : r.Cuts data 0 [] s := ⟨hr, hs, rfl⟩
  have last : r.Cuts data data.length s [] := ⟨hr, by rw [List.append_nil]; exact hs, by rw [hw]⟩
  refine ⟨(r.text s).length, ?_, last.charIndex, ?_, ?_, ?_⟩
  · rw [first.charIndex, Reading.text_nil]
    rfl
  · intro b b' n n' hb hn hn'
    obtain ⟨t, u, h, rfl⟩ := cuts hn
    obtain ⟨t', u', h', rfl⟩ := cuts hn'
    obtain ⟨m, rfl, rfl, hl⟩ := h.between h' hb
    have h1 := length_unixLines_le (r.placed t m)
    have h2 := r.length_placed_le t m
    have h3 := r.length_le_write m
    rw [Reading.text_append, List.length_append]
    omega
  · intro k hk
    obtain ⟨v, w, rfl, hl⟩ := r.exists_text_length [] s k
      (by rw [Reading.text_nil]; exact Nat.zero_le k) hk
    have hc : r.Cuts data (v.flatMap r.write).length v w := ⟨hr, hs, rfl⟩
    exact ⟨_, by rw [hc.charIndex, hl]⟩
  · intro b b' n n' hb hn hn'
    obtain ⟨t, u, h, rfl⟩ := cuts hn
    obtain ⟨t', u', h', rfl⟩ := cuts hn'
    obtain ⟨m, rfl, rfl, hl⟩ := h.between h' (Nat.le_of_lt hb)
    rw [← h.placed_eq_nil_iff hl hb, ← unixLines_eq_nil, Reading.text_append, List.length_append,
      ← List.length_eq_zero_iff]
    omega

theorem exists_indexing_signed :
    (∀ name, codec? signedSource = some name → Encoding.isMultibyte name = false) ∧
      ∃ size, Indexing signedSource size := by
  have hm : ∀ name, codec? signedSource = some name → Encoding.isMultibyte name = false := by
    intro name h
    obtain rfl : "utf8sig" = name := Option.some.inj (codec?_signed.symm.trans h)
    decide +kernel
  exact ⟨hm, exists_indexing hm⟩

end Relocate.Source
