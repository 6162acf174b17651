namespace Relocate.Utf8

abbrev Bytes := List UInt8

def isTail (b : UInt8) : Bool := 0x80 ≤ b && b ≤ 0xBF

/-- What the first byte of a sequence fixes: its share of the code point, how many bytes follow,
and the bounds of the first of these. -/
structure Lead where
  bits : Nat
  more : Nat
  low : UInt8
  high : UInt8
  deriving DecidableEq, Repr

/-- The bounds of the second byte keep out overlong forms, surrogates and what lies above
the last code point. -/
def lead? (a : UInt8) : Option Lead :=
  if a < 0x80 then some ⟨a.toNat, 0, 0x80, 0xBF⟩
  else if a < 0xC2 then none
  else if a < 0xE0 then some ⟨a.toNat - 0xC0, 1, 0x80, 0xBF⟩
  else if a = 0xE0 then some ⟨0, 2, 0xA0, 0xBF⟩
  else if a = 0xED then some ⟨0xD, 2, 0x80, 0x9F⟩
  else if a < 0xF0 then some ⟨a.toNat - 0xE0, 2, 0x80, 0xBF⟩
  else if a = 0xF0 then some ⟨0, 3, 0x90, 0xBF⟩
  else if a < 0xF4 then some ⟨a.toNat - 0xF0, 3, 0x80, 0xBF⟩
  else if a = 0xF4 then some ⟨4, 3, 0x80, 0x8F⟩
  else none

def continuation (l : Lead) : Bytes → Bytes
  | [] => []
  | b :: s =>
    if l.more ≠ 0 ∧ l.low ≤ b ∧ b ≤ l.high then b :: (s.takeWhile isTail).take (l.more - 1) else []

def codePoint (l : Lead) (tail : Bytes) : Nat :=
  tail.foldl (fun n b => n * 64 + (b.toNat - 0x80)) l.bits

/-- What `a` begins when `s` follows it: a character, or nothing, and how many bytes of `s` go
with it. -/
def front (a : UInt8) (s : Bytes) : Option Char × Nat :=
  match lead? a with
  | none => (none, 0)
  | some l =>
    let tail := continuation l s
    (if tail.length = l.more then some (Char.ofNat (codePoint l tail)) else none, tail.length)

def decode : Bytes → Option (List Char)
  | [] => some []
  | a :: s =>
    match front a s with
    | (some c, k) => (decode (s.drop k)).map (c :: ·)
    | (none, _) => none
termination_by s => s.length
decreasing_by simp only [List.length_drop, List.length_cons]; omega

/-- Each longest run that begins a sequence and does not end it stands for one `U+FFFD`. -/
def decodeLossy : Bytes → List Char
  | [] => []
  | a :: s => ((front a s).1.getD (Char.ofNat 0xFFFD)) :: decodeLossy (s.drop (front a s).2)
termination_by s => s.length
decreasing_by simp only [List.length_drop, List.length_cons]; omega

def isBoundary (s : Bytes) (i : Nat) : Bool :=
  i = 0 || (match s[i]? with | some b => !isTail b | none => i = s.length)

def encode (s : String) : Bytes := s.toList.flatMap String.utf8EncodeChar

def text? (s : Bytes) : Option String := (decode s).map String.ofList

def textLossy (s : Bytes) : String := String.ofList (decodeLossy s)

end Relocate.Utf8
