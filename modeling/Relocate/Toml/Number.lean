import Relocate.Toml.Scan
import Relocate.Toml.Value

namespace Relocate.Toml

open Scan

/-- Digits that may have an underscore between two of them. The digits are returned. -/
def spacedDigits (isDigit : Char → Bool) (fuel : Nat) : Scan (List Char) := do
  let c ← eatIf isDigit
  return c :: (← more fuel)
where
  more : Nat → Scan (List Char)
    | 0 => return []
    | fuel + 1 => do
      match ← maybe (eatIf fun c => isDigit c || c = '_') with
      | none => return []
      | some '_' => return (← eatIf isDigit) :: (← more fuel)
      | some c => return c :: (← more fuel)

def sign : Scan Bool := do
  match ← maybe (eatIf fun c => c = '+' || c = '-') with
  | some '-' => return true
  | _ => return false

def decimal (fuel : Nat) : Scan (List Char) := do
  match ← peek with
  | some '0' =>
    eat '0'
    return ['0']
  | _ => spacedDigits Char.isDigit fuel

def digit (c : Char) : Nat := if c.isDigit then c.toNat - 48 else c.toLower.toNat - 87

def number (base : Nat) (cs : List Char) : Nat := cs.foldl (fun n c => n * base + digit c) 0

def signed (negative : Bool) (n : Nat) : Scan Toml :=
  if negative then (if n ≤ Nat.pow 2 63 then return .integer (-n) else failure)
  else if n < Nat.pow 2 63 then return .integer n else failure

def based (mark : List Char) (base : Nat) (isDigit : Char → Bool) (fuel : Nat) : Scan Toml := do
  eatAll mark
  signed false (number base (← spacedDigits isDigit fuel))

def integerValue (fuel : Nat) : Scan Toml :=
  based ['0', 'x'] 16 (fun c => c.isDigit || ('a' ≤ c.toLower && c.toLower ≤ 'f')) fuel
    <|> based ['0', 'o'] 8 (fun c => '0' ≤ c && c ≤ '7') fuel
    <|> based ['0', 'b'] 2 (fun c => c = '0' || c = '1') fuel
    <|> do
      let negative ← sign
      signed negative (number 10 (← decimal fuel))

def fraction (fuel : Nat) : Scan (List Char) := do
  eat '.'
  spacedDigits Char.isDigit fuel

def exponent (fuel : Nat) : Scan Int := do
  discard (eatIf fun c => c = 'e' || c = 'E')
  let negative ← sign
  let n := number 10 (← spacedDigits Char.isDigit fuel)
  return if negative then -n else n

/-- The double of a decimal with an exponent. An exponent beyond `limit`, which is larger than any
that matters for this number of digits, counts as that. -/
def double (negative : Bool) (digits : List Char) (e : Int) : Binary64 :=
  let limit : Int := digits.length + 400
  .ofDecimal negative (number 10 digits) (max (-limit) (min limit e))

/-- A float in digits. One too large is infinite if it is negative, and refused otherwise. -/
def finite (fuel : Nat) : Scan Toml := do
  let negative ← sign
  let whole ← decimal fuel
  let point ← maybe (fraction fuel)
  let power ← if point.isSome then maybe (exponent fuel) else (do return some (← exponent fuel))
  let places := point.getD []
  let x := double negative (whole ++ places) (power.getD 0 - places.length)
  if x = .infinite false then failure else return .float x

def special : Scan Toml := do
  let negative ← sign
  (do eatAll "inf".toList; return .float (.infinite negative))
    <|> (do eatAll "nan".toList; return .float .nan)

def floatValue (fuel : Nat) : Scan Toml := finite fuel <|> special

end Relocate.Toml
