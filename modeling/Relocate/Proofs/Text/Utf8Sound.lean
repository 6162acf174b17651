import Relocate.Text.Utf8.RoundTrip

namespace Relocate.Utf8

theorem byte_eq {a : UInt8} {n : Nat} (h : a.toNat = n) : byte n = a := by
  rw [byte, ← h]
  exact UInt8.ofNat_toNat

theorem lead?_cases {a : UInt8} {l : Lead} (h : lead? a = some l) :
    (a.toNat < 0x80 ∧ l = ⟨a.toNat, 0, 0x80, 0xBF⟩) ∨
      (∃ m, 2 ≤ m ∧ m < 32 ∧ a.toNat = 0xC0 + m ∧ l = ⟨m, 1, 0x80, 0xBF⟩) ∨
      (∃ m, m < 16 ∧ a.toNat = 0xE0 + m ∧
        l = ⟨m, 2, if m = 0 then 0xA0 else 0x80, if m = 13 then 0x9F else 0xBF⟩) ∨
      ∃ m, m < 5 ∧ a.toNat = 0xF0 + m ∧
        l = ⟨m, 3, if m = 0 then 0x90 else 0x80, if m = 4 then 0x8F else 0xBF⟩ := by
  simp only [lead?, UInt8.lt_iff_toNat_lt, ← UInt8.toNat_inj, UInt8.reduceToNat] at h
  by_cases h1 : a.toNat < 0x80
  · rw [if_pos h1] at h
    exact .inl ⟨h1, (Option.some.inj h).symm⟩
  by_cases h2 : a.toNat < 0xC2
  · rw [if_neg h1, if_pos h2] at h
    cases h
  rw [if_neg h1, if_neg h2] at h
  by_cases h3 : a.toNat < 0xE0
  · rw [if_pos h3] at h
    exact .inr (.inl ⟨a.toNat - 0xC0, by omega, by omega, by omega, (Option.some.inj h).symm⟩)
  rw [if_neg h3] at h
  by_cases h4 : a.toNat < 0xF0
  · refine .inr (.inr (.inl ⟨a.toNat - 0xE0, by omega, by omega, ?_⟩))
    by_cases h5 : a.toNat = 0xE0
    · rw [if_pos h5] at h
      rw [← Option.some.inj h, h5]
      rfl
    by_cases h6 : a.toNat = 0xED
    · rw [if_neg h5, if_pos h6] at h
      rw [← Option.some.inj h, h6]
      rfl
    rw [if_neg h5, if_neg h6, if_pos h4] at h
    rw [← Option.some.inj h, if_neg (by omega), if_neg (by omega)]
  · rw [if_neg (by omega), if_neg (by omega), if_neg h4] at h
    by_cases h5 : a.toNat = 0xF0
    · rw [if_pos h5] at h
      exact .inr (.inr (.inr ⟨0, by omega, h5, (Option.some.inj h).symm⟩))
    by_cases h6 : a.toNat < 0xF4
    · rw [if_neg h5, if_pos h6] at h
      refine .inr (.inr (.inr ⟨a.toNat - 0xF0, by omega, by omega, ?_⟩))
      rw [← Option.some.inj h, if_neg (by omega), if_neg (by omega)]
    by_cases h7 : a.toNat = 0xF4
    · rw [if_neg h5, if_neg h6, if_pos h7] at h
      exact .inr (.inr (.inr ⟨4, by omega, h7, (Option.some.inj h).symm⟩))
    · rw [if_neg h5, if_neg h6, if_neg h7] at h
      cases h

theorem continuation_cases {l : Lead} {s : Bytes} {n : Nat} (hn : l.more = n + 1)
    (h : (continuation l s).length = l.more) :
    ∃ b tail rest, s = b :: (tail ++ rest) ∧ continuation l s = b :: tail ∧ tail.length = n ∧
      (l.low ≤ b ∧ b ≤ l.high) ∧ ∀ x ∈ tail, isTail x = true := by
  cases s with
  | nil =>
    rw [hn] at h
    cases h
  | cons b s =>
    by_cases hb : l.more ≠ 0 ∧ l.low ≤ b ∧ b ≤ l.high
    · rw [continuation, if_pos hb] at h ⊢
      obtain ⟨tail, ht⟩ : ∃ tail, tail = (s.takeWhile isTail).take (l.more - 1) := ⟨_, rfl⟩
      rw [← ht] at h ⊢
      have hp : tail <+: s := by
        rw [ht]
        exact (List.take_prefix _ _).trans (List.takeWhile_prefix isTail)
      obtain ⟨rest, hr⟩ := hp
      refine ⟨b, tail, rest, by rw [hr], rfl, ?_, hb.2, ?_⟩
      · rw [List.length_cons, hn] at h
        omega
      · intro x hx
        rw [ht] at hx
        exact List.all_eq_true.mp List.all_takeWhile x (List.mem_of_mem_take hx)
    · rw [continuation, if_neg hb, hn] at h
      cases h

theorem isTail_iff {b : UInt8} : isTail b = true ↔ 0x80 ≤ b.toNat ∧ b.toNat < 0xC0 := by
  simp only [isTail, Bool.and_eq_true, decide_eq_true_eq, UInt8.le_iff_toNat_le, UInt8.reduceToNat]
  omega

theorem toNat_ofNat_char {n : Nat} (h : n < 0xD800 ∨ 0xDFFF < n ∧ n < 0x110000) :
    (Char.ofNat n).toNat = n := by
  have hv : n.isValidChar := h
  rw [Char.ofNat, dif_pos hv]
  rfl

theorem encodeChar_one {a : UInt8} (ha : a.toNat < 0x80) :
    String.utf8EncodeChar (Char.ofNat a.toNat) = [a] := by
  rw [encodeChar_eq, toNat_ofNat_char (.inl (by omega)), if_pos ha, byte_eq rfl]

theorem encodeChar_two {a b : UInt8} {m : Nat} (hm : 2 ≤ m ∧ m < 32) (ha : a.toNat = 0xC0 + m)
    (hb : 0x80 ≤ b.toNat ∧ b.toNat < 0xC0) :
    String.utf8EncodeChar (Char.ofNat (m * 64 + (b.toNat - 0x80))) = [a, b] := by
  rw [encodeChar_eq, toNat_ofNat_char (.inl (by omega)), if_neg (by omega), if_pos (by omega)]
  rw [byte_eq (a := a) (by omega), byte_eq (a := b) (by omega)]

theorem encodeChar_three {a b b' : UInt8} {m : Nat} (hm : m < 16) (ha : a.toNat = 0xE0 + m)
    (hb : 0x80 ≤ b.toNat ∧ b.toNat < 0xC0) (h0 : m = 0 → 0xA0 ≤ b.toNat)
    (h13 : m = 13 → b.toNat < 0xA0) (hb' : 0x80 ≤ b'.toNat ∧ b'.toNat < 0xC0) :
    String.utf8EncodeChar
      (Char.ofNat ((m * 64 + (b.toNat - 0x80)) * 64 + (b'.toNat - 0x80))) = [a, b, b'] := by
  rw [encodeChar_eq, toNat_ofNat_char (by omega), if_neg (by omega), if_neg (by omega),
    if_pos (by omega)]
  rw [byte_eq (a := a) (by omega), byte_eq (a := b) (by omega), byte_eq (a := b') (by omega)]

theorem encodeChar_four {a b b' b'' : UInt8} {m : Nat} (hm : m < 5) (ha : a.toNat = 0xF0 + m)
    (hb : 0x80 ≤ b.toNat ∧ b.toNat < 0xC0) (h0 : m = 0 → 0x90 ≤ b.toNat)
    (h4 : m = 4 → b.toNat < 0x90) (hb' : 0x80 ≤ b'.toNat ∧ b'.toNat < 0xC0)
    (hb'' : 0x80 ≤ b''.toNat ∧ b''.toNat < 0xC0) :
    String.utf8EncodeChar (Char.ofNat (((m * 64 + (b.toNat - 0x80)) * 64 + (b'.toNat - 0x80)) * 64
      + (b''.toNat - 0x80))) = [a, b, b', b''] := by
  rw [encodeChar_eq, toNat_ofNat_char (by omega), if_neg (by omega), if_neg (by omega),
    if_neg (by omega)]
  rw [byte_eq (a := a) (by omega), byte_eq (a := b) (by omega), byte_eq (a := b') (by omega),
    byte_eq (a := b'') (by omega)]

theorem of_low {p : Prop} [Decidable p] {k b : UInt8} (h : (if p then k else 0x80) ≤ b)
    (hk : 0x80 ≤ k.toNat) : 0x80 ≤ b.toNat ∧ (p → k.toNat ≤ b.toNat) := by
  by_cases hp : p
  · rw [if_pos hp] at h
    exact ⟨Nat.le_trans hk h, fun _ => h⟩
  · rw [if_neg hp] at h
    exact ⟨h, fun hp' => absurd hp' hp⟩

theorem of_high {p : Prop} [Decidable p] {k b : UInt8} (h : b ≤ (if p then k else 0xBF))
    (hk : k.toNat < 0xC0) : b.toNat < 0xC0 ∧ (p → b.toNat < k.toNat + 1) := by
  by_cases hp : p
  · rw [if_pos hp] at h
    exact ⟨Nat.lt_of_le_of_lt h hk, fun _ => Nat.lt_succ_of_le h⟩
  · rw [if_neg hp] at h
    exact ⟨Nat.lt_succ_of_le h, fun hp' => absurd hp' hp⟩

theorem front_some {a : UInt8} {s : Bytes} {c : Char} {k : Nat} (h : front a s = (some c, k)) :
    a :: s = String.utf8EncodeChar c ++ s.drop k := by
  unfold front at h
  cases hl : lead? a with
  | none => simp [hl] at h
  | some l =>
    simp only [hl, Prod.mk.injEq] at h
    obtain ⟨hc, rfl⟩ := h
    by_cases ht : (continuation l s).length = l.more
    · rw [if_pos ht] at hc
      obtain rfl := Option.some.inj hc
      obtain ⟨ha, rfl⟩ | ⟨m, h2, hm, ha, rfl⟩ | ⟨m, hm, ha, rfl⟩ | ⟨m, hm, ha, rfl⟩ := lead?_cases hl
      · have hn : continuation ⟨a.toNat, 0, 0x80, 0xBF⟩ s = [] := List.length_eq_zero_iff.mp ht
        rw [hn, codePoint, List.foldl_nil, encodeChar_one ha]
        rfl
      · obtain ⟨b, tail, rest, rfl, hcn, hlen, hb, -⟩ := continuation_cases rfl ht
        obtain rfl := List.length_eq_zero_iff.mp hlen
        rw [hcn]
        refine congrArg (· ++ rest) (encodeChar_two ⟨h2, hm⟩ ha ⟨hb.1, ?_⟩).symm
        exact Nat.lt_succ_of_le hb.2
      · obtain ⟨b, tail, rest, rfl, hcn, hlen, hb, htl⟩ := continuation_cases rfl ht
        obtain ⟨b', rfl⟩ := List.length_eq_one_iff.mp hlen
        have hb' := isTail_iff.mp (htl b' (List.mem_singleton_self _))
        rw [hcn]
        obtain ⟨hlow, h0⟩ := of_low hb.1 (by decide)
        obtain ⟨hhigh, h13⟩ := of_high hb.2 (by decide)
        exact congrArg (· ++ rest) (encodeChar_three hm ha ⟨hlow, hhigh⟩ h0 h13 hb').symm
      · obtain ⟨b, tail, rest, rfl, hcn, hlen, hb, htl⟩ := continuation_cases rfl ht
        obtain ⟨b', tail, rfl⟩ := List.exists_cons_of_length_eq_add_one hlen
        obtain ⟨b'', rfl⟩ := List.length_eq_one_iff.mp (Nat.succ.inj hlen)
        have hb' := isTail_iff.mp (htl b' (by simp))
        have hb'' := isTail_iff.mp (htl b'' (by simp))
        rw [hcn]
        obtain ⟨hlow, h0⟩ := of_low hb.1 (by decide)
        obtain ⟨hhigh, h4⟩ := of_high hb.2 (by decide)
        exact congrArg (· ++ rest) (encodeChar_four hm ha ⟨hlow, hhigh⟩ h0 h4 hb' hb'').symm
    · rw [if_neg ht] at hc
      cases hc

/-- What is read is what was written, and nothing else can be read. -/
theorem decode_eq_some_iff {d : Bytes} {s : List Char} :
    decode d = some s ↔ d = s.flatMap String.utf8EncodeChar := by
  constructor
  · intro h
    induction d using decode.induct generalizing s with
    | case1 =>
      rw [decode] at h
      cases h
      rfl
    | case2 a rest c k hf ih =>
      rw [decode, hf] at h
      obtain ⟨s', hs, rfl⟩ := Option.map_eq_some_iff.mp h
      rw [front_some hf, List.flatMap_cons, ih hs]
    | case3 a rest k hf =>
      rw [decode, hf] at h
      cases h
  · rintro rfl
    exact decode_flatMap_encodeChar s

theorem text?_eq_some_iff {d : Bytes} {s : String} : text? d = some s ↔ encode s = d := by
  constructor
  · intro h
    obtain ⟨t, ht, rfl⟩ := Option.map_eq_some_iff.mp h
    rw [encode, String.toList_ofList]
    exact (decode_eq_some_iff.mp ht).symm
  · rintro rfl
    exact text?_encode s

theorem encodeChar_cases (c : Char) :
    ∃ b rest, String.utf8EncodeChar c = b :: rest ∧ isTail b = false ∧
      ∀ x ∈ rest, isTail x = true := by
  have head {n : Nat} (h : n < 0x80 ∨ 0xC0 ≤ n) (hn : n < 256) : isTail (byte n) = false := by
    rw [← Bool.not_eq_true, isTail_iff, toNat_byte hn]
    omega
  have hv := toNat_bounds c
  rw [encodeChar_eq]
  by_cases h1 : c.toNat < 0x80
  · rw [if_pos h1]
    exact ⟨_, [], rfl, head (.inl h1) (by omega), List.forall_mem_nil _⟩
  by_cases h2 : c.toNat < 0x800
  · rw [if_neg h1, if_pos h2]
    refine ⟨_, _, rfl, head (.inr (by omega)) (by omega), ?_⟩
    simp [isTail_byte (Nat.mod_lt _ _)]
  by_cases h3 : c.toNat < 0x10000
  · rw [if_neg h1, if_neg h2, if_pos h3]
    refine ⟨_, _, rfl, head (.inr (by omega)) (by omega), ?_⟩
    simp [isTail_byte (Nat.mod_lt _ _)]
  · rw [if_neg h1, if_neg h2, if_neg h3]
    refine ⟨_, _, rfl, head (.inr (by omega)) (by omega), ?_⟩
    simp [isTail_byte (Nat.mod_lt _ _)]

theorem eq_of_mem_encodeChar {c : Char} {b : UInt8} (hb : b ∈ String.utf8EncodeChar c)
    (h : b.toNat < 0x80) : c = Char.ofNat b.toNat := by
  obtain ⟨a, rest, hc, -, hr⟩ := encodeChar_cases c
  rw [hc] at hb
  obtain rfl | hb := List.mem_cons.mp hb
  · have hd := decode_flatMap_encodeChar [c]
    rw [List.flatMap_singleton, hc, ← List.singleton_append, ← encodeChar_one h,
      decode_encodeChar] at hd
    obtain ⟨s, -, hs⟩ := Option.map_eq_some_iff.mp hd
    exact (List.cons.inj hs).1.symm
  · have ht := isTail_iff.mp (hr b hb)
    omega

def isCut (d : Bytes) (i : Nat) : Bool :=
  match d[i]? with
  | some b => !isTail b
  | none => i = d.length

theorem isCut_append (d d' : Bytes) (i : Nat) : isCut (d ++ d') (d.length + i) = isCut d' i := by
  unfold isCut
  rw [List.getElem?_append_right (Nat.le_add_right _ _), Nat.add_sub_cancel_left]
  cases d'[i]? <;> simp

theorem isCut_zero (s : List Char) : isCut (s.flatMap String.utf8EncodeChar) 0 = true := by
  cases s with
  | nil => rfl
  | cons c s =>
    obtain ⟨b, rest, hc, hb, -⟩ := encodeChar_cases c
    rw [List.flatMap_cons, hc]
    simp [isCut, hb]

theorem isBoundary_eq_isCut (s : List Char) (i : Nat) :
    isBoundary (s.flatMap String.utf8EncodeChar) i = isCut (s.flatMap String.utf8EncodeChar) i := by
  by_cases hi : i = 0
  · rw [hi, isCut_zero]
    rfl
  · simp only [isBoundary, hi, decide_false, Bool.false_or]
    rfl

theorem isCut_inside {c : Char} {d : Bytes} {i : Nat} (h0 : i ≠ 0)
    (hi : i < (String.utf8EncodeChar c).length) : isCut (String.utf8EncodeChar c ++ d) i = false := by
  obtain ⟨b, rest, hc, -, hr⟩ := encodeChar_cases c
  obtain ⟨k, rfl⟩ := Nat.exists_eq_succ_of_ne_zero h0
  rw [hc, List.length_cons] at hi
  have hk : k < rest.length := Nat.lt_of_succ_lt_succ hi
  have hx : (b :: rest ++ d)[k + 1]? = some rest[k] := by
    rw [List.cons_append, List.getElem?_cons_succ, List.getElem?_append_left hk]
    exact List.getElem?_eq_getElem hk
  rw [hc, isCut, hx]
  simp [hr _ (List.getElem_mem hk)]

theorem isCut_iff {s : List Char} {i : Nat} :
    isCut (s.flatMap String.utf8EncodeChar) i = true ↔
      ∃ t u, s = t ++ u ∧ (t.flatMap String.utf8EncodeChar).length = i := by
  constructor
  · intro h
    induction s generalizing i with
    | nil =>
      have hi : i = 0 := by simpa [isCut] using h
      exact ⟨[], [], rfl, hi.symm⟩
    | cons c s ih =>
      by_cases h0 : i = 0
      · exact ⟨[], c :: s, rfl, h0.symm⟩
      by_cases hi : i < (String.utf8EncodeChar c).length
      · rw [List.flatMap_cons, isCut_inside h0 hi] at h
        cases h
      · obtain ⟨j, rfl⟩ := Nat.exists_eq_add_of_le (Nat.le_of_not_lt hi)
        rw [List.flatMap_cons, isCut_append] at h
        obtain ⟨t, u, rfl, ht⟩ := ih h
        exact ⟨c :: t, u, rfl, by rw [List.flatMap_cons, List.length_append, ht]⟩
  · rintro ⟨t, u, rfl, rfl⟩
    rw [List.flatMap_append, ← Nat.add_zero (t.flatMap String.utf8EncodeChar).length, isCut_append]
    exact isCut_zero u

theorem isBoundary_iff {s : List Char} {i : Nat} :
    isBoundary (s.flatMap String.utf8EncodeChar) i = true ↔
      ∃ t u, s = t ++ u ∧ (t.flatMap String.utf8EncodeChar).length = i := by
  rw [isBoundary_eq_isCut, isCut_iff]

end Relocate.Utf8
