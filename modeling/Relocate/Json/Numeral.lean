import Relocate.Json.Value

namespace Relocate.Json

/-- A number taken apart. The digits are characters `0` to `9`, at least one in each part. -/
structure Numeral where
  negative : Bool
  whole : List Char
  fraction : Option (List Char)
  exponent : Option (Bool × List Char)
  deriving DecidableEq, Repr

namespace Numeral

def digits (s : List Char) : List Char × List Char :=
  (s.takeWhile Char.isDigit, s.dropWhile Char.isDigit)

def whole? : List Char → Option (List Char × List Char)
  | '0' :: s => some (['0'], s)
  | s => if (digits s).1.isEmpty then none else some (digits s)

def fraction? : List Char → Option (Option (List Char) × List Char)
  | '.' :: s => if (digits s).1.isEmpty then none else some (some (digits s).1, (digits s).2)
  | s => some (none, s)

def sign : List Char → Bool × List Char
  | '+' :: s => (false, s)
  | '-' :: s => (true, s)
  | s => (false, s)

def exponent? : List Char → Option (Option (Bool × List Char) × List Char)
  | c :: s =>
    if c = 'e' ∨ c = 'E' then
      let ds := digits (sign s).2
      if ds.1.isEmpty then none else some (some ((sign s).1, ds.1), ds.2)
    else some (none, c :: s)
  | [] => some (none, [])

def read? (s : List Char) : Option (Numeral × List Char) := do
  let (negative, s) := match s with
    | '-' :: r => (true, r)
    | r => (false, r)
  let (whole, s) ← whole? s
  let (fraction, s) ← fraction? s
  let (exponent, s) ← exponent? s
  return (⟨negative, whole, fraction, exponent⟩, s)

def digitValue (c : Char) : Nat := c.toNat - 48

/-- Appends digits to `n` as long as the result is at most `limit`; the digits left over follow. -/
def absorb (limit : Nat) : Nat → List Char → Nat × List Char
  | n, [] => (n, [])
  | n, c :: s =>
    if n * 10 + digitValue c ≤ limit then absorb limit (n * 10 + digitValue c) s else (n, c :: s)

def maxNat64 : Nat := Nat.pow 2 64 - 1

/-- `± n · 10 ^ e` by one multiplication or division with a power of ten, the exponents beyond 308
being reached in steps. Nothing if the number is too large. The steps go down from `fuel`. -/
def scale (negative : Bool) (x : Binary64) (e : Int) : Nat → Option Binary64
  | 0 => none
  | fuel + 1 =>
    if e.natAbs ≤ 308 then
      let ten := Binary64.ofNat (Nat.pow 10 e.natAbs)
      let y := if 0 ≤ e then x.mul ten else x.div ten
      if y.isInfinite then none else some (if negative then y.neg else y)
    else if x.isZero then some (if negative then x.neg else x)
    else if 0 ≤ e then none
    else scale negative (x.div (Binary64.ofNat (Nat.pow 10 308))) (e + 308) fuel

def double? (m : Numeral) : Option Binary64 :=
  let (n, more) := absorb maxNat64 0 m.whole
  let fraction := m.fraction.getD []
  let (n, rest) := absorb maxNat64 n fraction
  let shift : Int := more.length - (fraction.length - rest.length : Nat)
  match m.exponent with
  | none => scale m.negative (Binary64.ofNat n) shift 4
  | some (minus, ds) =>
    match absorb (Nat.pow 2 31 - 1) 0 ds with
    | (e, []) => scale m.negative (Binary64.ofNat n) (if minus then shift - e else shift + e) 4
    | _ => if n ≠ 0 ∧ !minus then none else some (Binary64.zero m.negative)

/-- The value of a number: whole numbers of 64 bits exactly, with a sign only where the result is
negative; all others as doubles, unless they are too large for one. -/
def value? (m : Numeral) : Option Json :=
  match m.fraction, m.exponent, absorb maxNat64 0 m.whole with
  | none, none, (n, []) =>
    if !m.negative then some (.int n)
    else if 0 < n ∧ n ≤ Nat.pow 2 63 then some (.int (-n))
    else some (.float (Binary64.ofNat n).neg)
  | _, _, _ => m.double?.map .float

end Numeral

end Relocate.Json
