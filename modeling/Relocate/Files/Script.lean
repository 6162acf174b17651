import Relocate.Text.Utf8

namespace Relocate.Script

open Utf8 (Bytes)

def window : Nat := 256

def isSpace (b : UInt8) : Bool := b = 32 || b = 9

def afterMark? (data : Bytes) : Option Bytes :=
  match data.take window with
  | 35 :: 33 :: s => some (s ++ List.replicate (window - 2 - s.length) 0)
  | _ => none

/-- The line that counts. Without a line feed before the first zero it is the whole window but for
its last byte, provided that the name of the program is seen to end. -/
def line? (s : Bytes) : Option Bytes :=
  let front := s.takeWhile fun b => b ≠ 10 && b ≠ 0
  match s.drop front.length with
  | 10 :: _ => some front
  | _ =>
    if (s.dropWhile isSpace).any (fun b => isSpace b || b = 0) then some (s.take (window - 3))
    else none

def withoutEndSpace (s : Bytes) : Bytes := (s.reverse.dropWhile isSpace).reverse

structure Header where
  program : String
  /-- One argument at most. It holds all that follows the name, spaces included. -/
  argument : Option String
  deriving DecidableEq, Repr

def argument? (s : Bytes) : Option String :=
  match s with
  | b :: rest =>
    if isSpace b then some (Utf8.textLossy ((rest.dropWhile isSpace).takeWhile (· ≠ 0))) else none
  | [] => none

/-- What the first line of a script says. -/
def header? (data : Bytes) : Option Header := do
  let line ← line? (← afterMark? data)
  let s := (withoutEndSpace line).dropWhile isSpace
  if s.isEmpty then none
  else
    let name := s.takeWhile fun b => !isSpace b && b ≠ 0
    return ⟨Utf8.textLossy name, argument? (s.drop name.length)⟩

end Relocate.Script
