import Relocate.Number.Binary64

namespace Relocate

structure Decimal where
  digits : Nat
  exponent : Int
  deriving DecidableEq, Repr

namespace Binary64

def digitCount (n : Nat) : Nat := (Nat.toDigits 10 n).length

def leadingExponent (n d : Nat) : Int :=
  if d ≤ n then (digitCount (n / d) : Int) - 1 else - (digitCount ((n + d - 1) / n - 1) : Int)

def tenTo : Int → Nat × Nat
  | .ofNat e => (Nat.pow 10 e, 1)
  | .negSucc e => (1, Nat.pow 10 (e + 1))

/-- The numbers that round to `m · 2 ^ (q - 1074)` lie between these two multiples of
`2 ^ (q - 1076)`. -/
def lowerBound (m q : Nat) : Nat := if m = Nat.pow 2 52 ∧ q ≠ 0 then 4 * m - 1 else 4 * m - 2

def upperBound (m : Nat) : Nat := 4 * m + 2

def readsBack (m q : Nat) (g : Int) (x : Nat) : Bool :=
  let point := (x * (tenTo g).1) <<< 1076
  let low := (lowerBound m q <<< q) * (tenTo g).2
  let high := (upperBound m <<< q) * (tenTo g).2
  if m % 2 = 0 then low ≤ point && point ≤ high else low < point && point < high

/-- The best point of the grid of multiples of `10 ^ g`, if one of the two next to
`m · 2 ^ (q - 1074)` reads back. -/
def gridPoint? (tie : Tie) (m q : Nat) (g : Int) : Option Decimal :=
  let value := (m <<< q) * (tenTo g).2
  let unit := (tenTo g).1 <<< 1074
  let x := value / unit
  match readsBack m q g x, readsBack m q g (x + 1) with
  | true, false => some ⟨x, g⟩
  | false, true => some ⟨x + 1, g⟩
  | true, true => some ⟨nearest tie value unit, g⟩
  | false, false => none

/-- The shortest decimal of a positive double. Seventeen digits always suffice. The point above the
value on the coarsest grid may be the next power of ten, whose zero is dropped. -/
def shortest (tie : Tie) (m q : Nat) : Decimal :=
  let e := leadingExponent (m <<< q) (1 <<< 1074)
  let d := ((List.range 17).findSome? fun (i : Nat) => gridPoint? tie m q (e - i)).getD ⟨0, 0⟩
  if d.digits = 10 then ⟨1, d.exponent + 1⟩ else d

end Binary64

namespace Decimal

def digitText (d : Decimal) : String := toString d.digits

def zeros (n : Nat) : String := String.ofList (List.replicate n '0')

def positional (d : Decimal) : String :=
  let ds := d.digitText
  match d.exponent with
  | .ofNat e => ds ++ zeros e ++ ".0"
  | .negSucc e =>
    let k := e + 1
    if ds.length ≤ k then "0." ++ zeros (k - ds.length) ++ ds
    else String.ofList (ds.toList.take (ds.length - k)) ++ "."
      ++ String.ofList (ds.toList.drop (ds.length - k))

def compact (d : Decimal) : String :=
  let ds := d.digitText
  let point : Int := ds.length + d.exponent
  if -5 < point ∧ point ≤ 16 then d.positional
  else
    let mark := (if 0 < point then "e+" else "e") ++ toString (point - 1)
    match ds.toList with
    | [c] => String.singleton c ++ mark
    | c :: cs => String.singleton c ++ "." ++ String.ofList cs ++ mark
    | [] => mark

end Decimal

namespace Binary64

def signText (negative : Bool) : String := if negative then "-" else ""

structure Layout where
  /-- Which of two shortest decimals is written, if both are as near. -/
  tie : Tie
  text : Decimal → String

def Layout.positional : Layout := ⟨.up, Decimal.positional⟩

def Layout.compact : Layout := ⟨.toEven, Decimal.compact⟩

def render (l : Layout) : Binary64 → String
  | .finite s m q => signText s ++ (if m = 0 then "0.0" else l.text (shortest l.tie m q))
  | .infinite s => signText s ++ "inf"
  | .nan => "NaN"

def positionalText (x : Binary64) : String := x.render .positional

def compactText (x : Binary64) : String := x.render .compact

end Binary64

end Relocate
