namespace Relocate

inductive Binary64
  | finite (negative : Bool) (mantissa power : Nat)
  | infinite (negative : Bool)
  | nan
  deriving DecidableEq, Repr, Inhabited

namespace Binary64

/-- Which integer a value halfway between two of them goes to. -/
inductive Tie
  | toEven
  | up
  deriving DecidableEq, Repr

def nearest (tie : Tie) (n d : Nat) : Nat :=
  let q := n / d
  let r := n % d
  if 2 * r < d ∨ (2 * r = d ∧ tie = .toEven ∧ q % 2 = 0) then q else q + 1

/-- The largest power with which a mantissa of 53 bits is finite. -/
def topPower : Nat := 2045

def ofRatio (negative : Bool) (n d : Nat) : Binary64 :=
  let scaled := n <<< 1074
  let power := (scaled / d).log2 - 52
  let m := nearest .toEven scaled (d <<< power)
  if m < Nat.pow 2 53 then
    if power ≤ topPower then .finite negative m power else .infinite negative
  else
    if power + 1 ≤ topPower then .finite negative (Nat.pow 2 52) (power + 1) else .infinite negative

def ofDecimal (negative : Bool) (n : Nat) : Int → Binary64
  | .ofNat e => ofRatio negative (n * Nat.pow 10 e) 1
  | .negSucc e => ofRatio negative n (Nat.pow 10 (e + 1))

def ofNat (n : Nat) : Binary64 := ofRatio false n 1

def zero (negative : Bool) : Binary64 := .finite negative 0 0

def isZero : Binary64 → Bool
  | .finite _ m _ => m = 0
  | _ => false

def isInfinite : Binary64 → Bool
  | .infinite _ => true
  | _ => false

def neg : Binary64 → Binary64
  | .finite s m q => .finite (!s) m q
  | .infinite s => .infinite (!s)
  | .nan => .nan

def mul : Binary64 → Binary64 → Binary64
  | .finite s m q, .finite t n r => ofRatio (s != t) ((m <<< q) * (n <<< r)) (1 <<< 2148)
  | _, _ => .nan

def div : Binary64 → Binary64 → Binary64
  | .finite s m q, .finite t n r => ofRatio (s != t) (m <<< q) (n <<< r)
  | _, _ => .nan

end Binary64

end Relocate
