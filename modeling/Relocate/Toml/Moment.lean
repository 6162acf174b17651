import Relocate.Toml.Scan
import Relocate.Toml.Value

namespace Relocate.Toml

open Scan

def part (digits low high : Nat) : Scan Nat := do
  let cs ← takeExactly Char.isDigit digits
  let n := cs.foldl (fun n c => n * 10 + (c.toNat - 48)) 0
  if low ≤ n ∧ n ≤ high then return n else failure

def isLeap (year : Nat) : Bool := year % 4 = 0 && (year % 100 ≠ 0 || year % 400 = 0)

def daysIn (year month : Nat) : Nat :=
  if month = 2 then (if isLeap year then 29 else 28)
  else if month ∈ [4, 6, 9, 11] then 30 else 31

def date : Scan Unit := do
  let year ← part 4 0 9999
  eat '-'
  let month ← part 2 1 12
  eat '-'
  discard (part 2 1 (daysIn year month))

/-- The sixtieth second is for leap seconds. -/
def time : Scan Unit := do
  discard (part 2 0 23)
  eat ':'
  discard (part 2 0 59)
  eat ':'
  discard (part 2 0 60)
  discard (maybe (do eat '.'; takeSome Char.isDigit))

def zone : Scan Unit :=
  (do discard (eatIf fun c => c = 'Z' || c = 'z')) <|> do
    discard (eatIf fun c => c = '+' || c = '-')
    discard (part 2 0 23)
    eat ':'
    discard (part 2 0 59)

def timeAfterDate : Scan Unit := do
  discard (eatIf fun c => c = 'T' || c = 't' || c = ' ')
  time
  discard (maybe zone)

def momentValue : Scan Toml := do
  (do date; discard (maybe timeAfterDate)) <|> time
  return .moment

end Relocate.Toml
