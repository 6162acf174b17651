import Mathlib.Data.List.Basic
import Relocate.Proofs.Source.UnixLines

namespace Relocate.Source

open Utf8 (Bytes decode_encodeChar decode_eq_some_iff decode_flatMap_encodeChar encodeChar_cases
  encodeChar_one eq_of_mem_encodeChar isTail_iff toNat_ofNat_char)

/-- How bytes are taken for characters: as UTF-8, with a mark at the front dropped or kept, or one
by one. -/
inductive Reading
  | utf8 (dropsMark : Bool)
  | latin1
  deriving DecidableEq

/-- A file is read as UTF-8 if it is to be and can be, and byte for byte if it cannot be or declares
some other codec of single bytes. -/
inductive IsRead (data : Bytes) : Reading → Prop
  | utf8 {s : List Char} (hu : ReadsUtf8 (codec? data)) (hd : data = s.flatMap String.utf8EncodeChar) :
    IsRead data (.utf8 (codec? data = some "utf8sig"))
  | latin1 (hm : ∀ name, codec? data = some name → Encoding.isMultibyte name = false)
    (hu : ReadsUtf8 (codec? data) → ∀ s : List Char, data ≠ s.flatMap String.utf8EncodeChar) :
    IsRead data .latin1

namespace Reading

def characters? : Reading → Bytes → Option (List Char)
  | utf8 _, d => Utf8.decode d
  | latin1, d => some (bytewise d)

def text (r : Reading) (s : List Char) : List Char :=
  unixLines (if r = utf8 true then withoutMark s else s)

def write : Reading → Char → Bytes
  | utf8 _, c => String.utf8EncodeChar c
  | latin1, c => [UInt8.ofNat c.toNat]

def Has : Reading → Char → Prop
  | utf8 _, _ => True
  | latin1, c => c.toNat < 256

/-- Whether `c` has no place of its own in the text when it comes after `t`: it ends a pair that `t`
begins, or it is the mark. -/
def Skips (r : Reading) (t : List Char) (c : Char) : Prop :=
  t.getLast? = some '\r' ∧ c = '\n' ∨ r = utf8 true ∧ t = [] ∧ c = '\uFEFF'

instance (r : Reading) (t : List Char) (c : Char) : Decidable (r.Skips t c) :=
  inferInstanceAs (Decidable (_ ∨ _))

/-- What of the characters `u` that come after `t` has a place in the text. -/
def placed (r : Reading) (t : List Char) : List Char → List Char
  | [] => []
  | c :: u => if r.Skips t c then u else c :: u

theorem write_bytewise (d : Bytes) : (bytewise d).flatMap latin1.write = d := by
  induction d with
  | nil => rfl
  | cons b d ih =>
    have hb : (Char.ofNat b.toNat).toNat = b.toNat :=
      toNat_ofNat_char (.inl (by have := b.toNat_lt; omega))
    change latin1.write (Char.ofNat b.toNat) ++ (bytewise d).flatMap latin1.write = b :: d
    rw [ih, write, hb, UInt8.ofNat_toNat]
    rfl

theorem bytewise_write {s : List Char} (h : ∀ c ∈ s, latin1.Has c) :
    bytewise (s.flatMap latin1.write) = s := by
  induction s with
  | nil => rfl
  | cons c s ih =>
    obtain ⟨hc, hs⟩ := List.forall_mem_cons.mp h
    have hb : Char.ofNat (UInt8.ofNat c.toNat).toNat = c := by
      rw [UInt8.toNat_ofNat', Nat.mod_eq_of_lt hc, Char.ofNat_toNat]
    change Char.ofNat (UInt8.ofNat c.toNat).toNat :: bytewise (s.flatMap latin1.write) = c :: s
    rw [hb, ih hs]

theorem has_bytewise (d : Bytes) : ∀ c ∈ bytewise d, latin1.Has c := by
  intro c hc
  obtain ⟨b, -, rfl⟩ := List.mem_map.mp hc
  have hb := b.toNat_lt
  rw [Has, toNat_ofNat_char (.inl (by omega))]
  exact hb

theorem characters?_eq_some {r : Reading} {d : Bytes} {s : List Char} :
    r.characters? d = some s ↔ d = s.flatMap r.write ∧ ∀ c ∈ s, r.Has c := by
  cases r with
  | utf8 drops =>
    have hs : ∀ c ∈ s, (utf8 drops).Has c := fun _ _ => trivial
    exact decode_eq_some_iff.trans (and_iff_left hs).symm
  | latin1 =>
    rw [characters?, Option.some.injEq]
    constructor
    · rintro rfl
      exact ⟨(write_bytewise d).symm, has_bytewise d⟩
    · rintro ⟨rfl, hs⟩
      exact bytewise_write hs

theorem write_ne_nil (r : Reading) (c : Char) : r.write c ≠ [] := by
  cases r with
  | utf8 drops =>
    obtain ⟨b, rest, hc, -⟩ := encodeChar_cases c
    rw [write, hc]
    exact List.cons_ne_nil b rest
  | latin1 => exact List.cons_ne_nil _ _

theorem length_le_write (r : Reading) (s : List Char) : s.length ≤ (s.flatMap r.write).length := by
  induction s with
  | nil => exact Nat.zero_le _
  | cons c s ih =>
    have hc := List.length_pos_iff.mpr (r.write_ne_nil c)
    rw [List.flatMap_cons, List.length_append, List.length_cons]
    omega

theorem write_eq_nil {r : Reading} {s : List Char} (h : (s.flatMap r.write).length = 0) : s = [] := by
  have hs := r.length_le_write s
  exact List.eq_nil_of_length_eq_zero (by omega)

theorem eq_of_mem_write {r : Reading} {c : Char} {b : UInt8} (hc : r.Has c) (hb : b ∈ r.write c)
    (h : b.toNat < 0x80) : c = Char.ofNat b.toNat := by
  cases r with
  | utf8 drops => exact eq_of_mem_encodeChar hb h
  | latin1 =>
    obtain rfl := List.mem_singleton.mp hb
    rw [UInt8.toNat_ofNat', Nat.mod_eq_of_lt hc, Char.ofNat_toNat]

theorem write_return (r : Reading) : r.write '\r' = [13] := by
  cases r <;> rfl

theorem write_feed (r : Reading) : r.write '\n' = [10] := by
  cases r <;> rfl

theorem head?_write_eq_feed {r : Reading} {c : Char} {s : List Char} (hc : r.Has c) :
    ((c :: s).flatMap r.write).head? = some 10 ↔ c = '\n' := by
  rw [List.flatMap_cons, List.head?_append_of_ne_nil (r.write c) (r.write_ne_nil c)]
  constructor
  · intro h
    exact eq_of_mem_write hc (List.mem_of_mem_head? h) (by decide)
  · rintro rfl
    rw [r.write_feed]
    rfl

theorem getLast?_write_eq_return {r : Reading} {s : List Char} (hs : ∀ c ∈ s, r.Has c) :
    (s.flatMap r.write).getLast? = some 13 ↔ s.getLast? = some '\r' := by
  obtain rfl | ⟨s, c, rfl⟩ := List.eq_nil_or_concat' s
  · simp
  rw [List.flatMap_append, List.flatMap_singleton,
    List.getLast?_append_of_ne_nil _ (r.write_ne_nil c), List.getLast?_concat, Option.some.injEq]
  constructor
  · intro h
    exact eq_of_mem_write (hs c (by simp)) (List.mem_of_getLast? h) (by decide)
  · rintro rfl
    rw [r.write_return]
    rfl

theorem text_nil (r : Reading) : r.text [] = [] := by
  rw [text]
  split <;> rfl

theorem withoutMark_append {t : List Char} (h : t ≠ []) (u : List Char) :
    withoutMark (t ++ u) = withoutMark t ++ u := by
  cases t with
  | nil => exact absurd rfl h
  | cons c t =>
    rw [List.cons_append, withoutMark_cons, withoutMark_cons]
    split <;> rfl

theorem getLast?_withoutMark (t : List Char) :
    (withoutMark t).getLast? = some '\r' ↔ t.getLast? = some '\r' := by
  cases t with
  | nil => exact Iff.rfl
  | cons c t =>
    rw [withoutMark_cons]
    by_cases hc : c = '\uFEFF'
    · subst hc
      cases t <;> simp
    · rw [if_neg hc]

theorem text_append_cons (r : Reading) (t : List Char) (c : Char) (u : List Char) :
    r.text (t ++ c :: u) = r.text t ++ unixLines (r.placed t (c :: u)) := by
  rw [placed]
  by_cases ht : t = []
  · subst ht
    rw [text_nil, List.nil_append, List.nil_append, text]
    by_cases hr : r = utf8 true
    · simp [Skips, hr, withoutMark_cons]
    · simp [Skips, hr]
  have hs : r.Skips t c ↔ t.getLast? = some '\r' ∧ c = '\n' := by simp [Skips, ht]
  rw [text, text]
  by_cases hr : r = utf8 true
  · rw [if_pos hr, if_pos hr, withoutMark_append ht, unixLines_append]
    simp only [getLast?_withoutMark, hs]
  · rw [if_neg hr, if_neg hr, unixLines_append]
    simp only [hs]

/-- A file that is cut has the text of its first part, and then that of what is placed after it. -/
theorem text_append (r : Reading) (t u : List Char) :
    r.text (t ++ u) = r.text t ++ unixLines (r.placed t u) := by
  cases u with
  | nil =>
    rw [List.append_nil]
    exact (List.append_nil _).symm
  | cons c u => exact text_append_cons r t c u

theorem length_placed_le (r : Reading) (t u : List Char) : (r.placed t u).length ≤ u.length := by
  cases u with
  | nil => exact Nat.le_refl 0
  | cons c u =>
    rw [placed]
    split
    · exact Nat.le_succ _
    · exact Nat.le_refl _

theorem placed_eq_nil {r : Reading} {t u : List Char} :
    r.placed t u = [] ↔ u = [] ∨ ∃ c, u = [c] ∧ r.Skips t c := by
  cases u with
  | nil => simp [placed]
  | cons c u =>
    rw [placed]
    constructor
    · intro h
      split at h
      · next hs => exact .inr ⟨c, by rw [h], hs⟩
      · cases h
    · rintro (h | ⟨d, hd, hs⟩)
      · cases h
      · obtain ⟨rfl, rfl⟩ := List.cons.inj hd
        exact if_pos hs

theorem exists_text_length (r : Reading) (t u : List Char) (k : Nat) (hl : (r.text t).length ≤ k)
    (hk : k ≤ (r.text (t ++ u)).length) :
    ∃ v w, t ++ u = v ++ w ∧ (r.text v).length = k := by
  induction u generalizing t with
  | nil =>
    rw [List.append_nil] at hk ⊢
    exact ⟨t, [], (List.append_nil t).symm, Nat.le_antisymm hl hk⟩
  | cons c u ih =>
    have hc : (r.text (t ++ [c])).length ≤ (r.text t).length + 1 := by
      rw [text_append, List.length_append]
      have h1 := length_unixLines_le (r.placed t [c])
      have h2 := length_placed_le r t [c]
      rw [List.length_singleton] at h2
      omega
    -- One more character makes the text longer by one at most, so that `k` is not passed over.
    by_cases he : (r.text t).length = k
    · exact ⟨t, c :: u, rfl, he⟩
    · rw [List.append_cons] at hk ⊢
      exact ih (t ++ [c]) (by omega) hk

end Reading
end Relocate.Source
