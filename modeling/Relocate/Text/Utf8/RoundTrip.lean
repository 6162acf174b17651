import Relocate.Text.Utf8

namespace Relocate.Utf8

def byte (n : Nat) : UInt8 := UInt8.ofNat n

theorem toNat_byte {n : Nat} (h : n < 256) : (byte n).toNat = n := by
  simp [byte, Nat.mod_eq_of_lt h]

theorem lead?_one : ∀ n : Fin 0x80, lead? (byte n) = some ⟨n, 0, 0x80, 0xBF⟩ := by decide

theorem lead?_two : ∀ m : Fin 30, lead? (byte (0xC2 + m)) = some ⟨2 + m, 1, 0x80, 0xBF⟩ := by
  decide

theorem lead?_three : ∀ m : Fin 16, lead? (byte (0xE0 + m)) =
    some ⟨m, 2, if m.val = 0 then 0xA0 else 0x80, if m.val = 13 then 0x9F else 0xBF⟩ := by
  decide

theorem lead?_four : ∀ m : Fin 5, lead? (byte (0xF0 + m)) =
    some ⟨m, 3, if m.val = 0 then 0x90 else 0x80, if m.val = 4 then 0x8F else 0xBF⟩ := by
  decide

theorem isTail_byte {m : Nat} (h : m < 64) : isTail (byte (0x80 + m)) = true :=
  (by decide : ∀ m : Fin 64, isTail (byte (0x80 + m)) = true) ⟨m, h⟩

theorem le_byte {k n : Nat} (h : k ≤ n) (hn : n < 256) : byte k ≤ byte n := by
  rw [UInt8.le_iff_toNat_le, toNat_byte hn, toNat_byte (by omega)]
  exact h

theorem ofNat_char {c : Char} {n : Nat} (h : c.toNat = n) : Char.ofNat n = c := by
  rw [← h, Char.ofNat_toNat]

theorem front_one {c : Char} (h : c.toNat < 0x80) (s : Bytes) :
    front (byte c.toNat) s = (some c, 0) := by
  have hl := lead?_one ⟨c.toNat, h⟩
  have hc : ∀ s, continuation ⟨c.toNat, 0, 0x80, 0xBF⟩ s = [] := by
    intro s
    cases s <;> simp [continuation]
  simp only at hl
  rw [front, hl]
  simp [hc, codePoint]

theorem front_two {c : Char} (h : 0x80 ≤ c.toNat) (h' : c.toNat < 0x800) (s : Bytes) :
    front (byte (0xC0 + c.toNat / 64)) (byte (0x80 + c.toNat % 64) :: s) = (some c, 1) := by
  have hl := lead?_two ⟨c.toNat / 64 - 2, by omega⟩
  have e : 0xC2 + (c.toNat / 64 - 2) = 0xC0 + c.toNat / 64 := by omega
  simp only [e] at hl
  have hb : byte (0x80 + c.toNat % 64) ≤ 0xBF := le_byte (n := 0xBF) (by omega) (by omega)
  have hb' : 0x80 ≤ byte (0x80 + c.toNat % 64) := le_byte (k := 0x80) (by omega) (by omega)
  have ht : (byte (0x80 + c.toNat % 64)).toNat = 0x80 + c.toNat % 64 := toNat_byte (by omega)
  rw [front, hl]
  simp [continuation, hb, hb', codePoint, ht]
  exact ofNat_char (by omega)

theorem continuation_pair {m : Nat} {low high b b' : UInt8} {s : Bytes} (h : low ≤ b ∧ b ≤ high)
    (h' : isTail b' = true) : continuation ⟨m, 2, low, high⟩ (b :: b' :: s) = [b, b'] := by
  simp [continuation, h, h']

theorem continuation_triple {m : Nat} {low high b b' b'' : UInt8} {s : Bytes}
    (h : low ≤ b ∧ b ≤ high) (h' : isTail b' = true) (h'' : isTail b'' = true) :
    continuation ⟨m, 3, low, high⟩ (b :: b' :: b'' :: s) = [b, b', b''] := by
  simp [continuation, h, h', h'']

theorem toNat_bounds (c : Char) : c.toNat < 0xD800 ∨ 0xDFFF < c.toNat ∧ c.toNat < 0x110000 :=
  c.valid

theorem front_three {c : Char} (h : 0x800 ≤ c.toNat) (h' : c.toNat < 0x10000) (s : Bytes) :
    front (byte (0xE0 + c.toNat / 4096))
      (byte (0x80 + c.toNat / 64 % 64) :: byte (0x80 + c.toNat % 64) :: s) = (some c, 2) := by
  have hl := lead?_three ⟨c.toNat / 4096, by omega⟩
  have hv := toNat_bounds c
  have low : (if c.toNat / 4096 = 0 then 0xA0 else 0x80) ≤ byte (0x80 + c.toNat / 64 % 64) := by
    split
    · exact le_byte (k := 0xA0) (by omega) (by omega)
    · exact le_byte (k := 0x80) (by omega) (by omega)
  have high : byte (0x80 + c.toNat / 64 % 64) ≤ (if c.toNat / 4096 = 13 then 0x9F else 0xBF) := by
    split
    · exact le_byte (n := 0x9F) (by omega) (by omega)
    · exact le_byte (n := 0xBF) (by omega) (by omega)
  rw [front, hl]
  simp only
  have e := continuation_pair (m := c.toNat / 4096) (s := s) ⟨low, high⟩
    (isTail_byte (m := c.toNat % 64) (by omega))
  have h1 : (byte (0x80 + c.toNat / 64 % 64)).toNat = 0x80 + c.toNat / 64 % 64 :=
    toNat_byte (by omega)
  have h2 : (byte (0x80 + c.toNat % 64)).toNat = 0x80 + c.toNat % 64 := toNat_byte (by omega)
  simp only [e, codePoint, List.length_cons, List.length_nil, List.foldl_cons, List.foldl_nil,
    h1, h2, if_true]
  rw [ofNat_char (c := c) (by omega)]

theorem front_four {c : Char} (h : 0x10000 ≤ c.toNat) (s : Bytes) :
    front (byte (0xF0 + c.toNat / 262144))
      (byte (0x80 + c.toNat / 4096 % 64) :: byte (0x80 + c.toNat / 64 % 64) ::
        byte (0x80 + c.toNat % 64) :: s) = (some c, 3) := by
  have hv := toNat_bounds c
  have hl := lead?_four ⟨c.toNat / 262144, by omega⟩
  have low : (if c.toNat / 262144 = 0 then 0x90 else 0x80) ≤
      byte (0x80 + c.toNat / 4096 % 64) := by
    split
    · exact le_byte (k := 0x90) (by omega) (by omega)
    · exact le_byte (k := 0x80) (by omega) (by omega)
  have high : byte (0x80 + c.toNat / 4096 % 64) ≤
      (if c.toNat / 262144 = 4 then 0x8F else 0xBF) := by
    split
    · exact le_byte (n := 0x8F) (by omega) (by omega)
    · exact le_byte (n := 0xBF) (by omega) (by omega)
  rw [front, hl]
  simp only
  have e := continuation_triple (m := c.toNat / 262144) (s := s) ⟨low, high⟩
    (isTail_byte (m := c.toNat / 64 % 64) (by omega)) (isTail_byte (m := c.toNat % 64) (by omega))
  have h0 : (byte (0x80 + c.toNat / 4096 % 64)).toNat = 0x80 + c.toNat / 4096 % 64 :=
    toNat_byte (by omega)
  have h1 : (byte (0x80 + c.toNat / 64 % 64)).toNat = 0x80 + c.toNat / 64 % 64 :=
    toNat_byte (by omega)
  have h2 : (byte (0x80 + c.toNat % 64)).toNat = 0x80 + c.toNat % 64 := toNat_byte (by omega)
  simp only [e, codePoint, List.length_cons, List.length_nil, List.foldl_cons, List.foldl_nil,
    h0, h1, h2, if_true]
  rw [ofNat_char (c := c) (by omega)]

theorem encodeChar_eq (c : Char) : String.utf8EncodeChar c =
    if c.toNat < 0x80 then [byte c.toNat]
    else if c.toNat < 0x800 then [byte (0xC0 + c.toNat / 64), byte (0x80 + c.toNat % 64)]
    else if c.toNat < 0x10000 then
      [byte (0xE0 + c.toNat / 4096), byte (0x80 + c.toNat / 64 % 64), byte (0x80 + c.toNat % 64)]
    else
      [byte (0xF0 + c.toNat / 262144), byte (0x80 + c.toNat / 4096 % 64),
        byte (0x80 + c.toNat / 64 % 64), byte (0x80 + c.toNat % 64)] := by
  have hv := toNat_bounds c
  have e : c.val.toNat = c.toNat := rfl
  have mod : ∀ n m, n < m → n % m = n := fun _ _ => Nat.mod_eq_of_lt
  simp only [String.utf8EncodeChar, e, byte, ← Nat.lt_succ_iff, Nat.succ_eq_add_one]
  split
  · rfl
  split
  · next h => rw [mod (c.toNat / 64) 32 (by omega), Nat.add_comm, Nat.add_comm (_ % 64)]
  split
  · next h =>
    rw [mod (c.toNat / 4096) 16 (by omega), Nat.add_comm, Nat.add_comm (_ % 64),
      Nat.add_comm (_ % 64)]
  · next h =>
    rw [mod (c.toNat / 262144) 8 (by omega), Nat.add_comm, Nat.add_comm (_ % 64),
      Nat.add_comm (_ % 64), Nat.add_comm (_ % 64)]

theorem decode_encodeChar (c : Char) (s : Bytes) :
    decode (String.utf8EncodeChar c ++ s) = (decode s).map (c :: ·) := by
  rw [encodeChar_eq]
  split
  · next h => simp [decode, front_one h]
  split
  · next h h' => simp [decode, front_two (c := c) (by omega) h']
  split
  · next h h' => simp [decode, front_three (c := c) (by omega) h']
  · next h => simp [decode, front_four (c := c) (by omega)]

theorem decode_flatMap_encodeChar (s : List Char) :
    decode (s.flatMap String.utf8EncodeChar) = some s := by
  induction s with
  | nil => simp [decode]
  | cons c s ih => simp [decode_encodeChar, ih]

theorem text?_encode (s : String) : text? (encode s) = some s := by
  simp [text?, encode, decode_flatMap_encodeChar]

end Relocate.Utf8
