import Relocate.Toml.Document
import Relocate.Toml.Moment
import Relocate.Toml.Number
import Relocate.Toml.Text

namespace Relocate.Toml

open Scan

/-- Keys with as many dots, and brackets as deep, are refused. -/
def maxDepth : Nat := 80

def isKeyChar (c : Char) : Bool := c.isAlphanum || c = '_' || c = '-'

def simpleKey (fuel : Nat) : Scan String :=
  basicText fuel <|> literalText fuel <|> (do return String.ofList (← takeSome isKeyChar))

def keys (fuel : Nat) : Nat → Scan (List String)
  | 0 => failure
  | n + 1 => do
    blanks
    let k ← simpleKey fuel
    blanks
    match ← maybe (eat '.') with
    | none => return [k]
    | some () => return k :: (← keys fuel n)

/-- A key taken apart: the names before the last dot, and the one after it. -/
def key (fuel : Nat) : Scan (List String × String) := do
  let ks ← keys fuel (maxDepth - 1)
  match ks.getLast? with
  | none => failure
  | some name => return (ks.dropLast, name)

def scalar (fuel : Nat) : Scan Toml :=
  (do return .string (← quotedText fuel))
    <|> (do eatAll "true".toList; return .boolean true)
    <|> (do eatAll "false".toList; return .boolean false)
    <|> momentValue <|> floatValue fuel <|> integerValue fuel

/-- Items with commas between them, at most `fuel`. Where an item fails nothing is taken, nor the
comma before it. -/
def separated {α : Type} (item : Scan α) : Nat → Scan (List α)
  | 0 => return []
  | fuel + 1 => do
    match ← maybe item with
    | none => return []
    | some x => return x :: (← rest fuel)
where
  rest : Nat → Scan (List α)
    | 0 => return []
    | fuel + 1 => do
      match ← maybe (do eat ','; item) with
      | none => return []
      | some x => return x :: (← rest fuel)

def arrayItems (item : Scan Toml) (fuel : Nat) : Scan Toml := do
  let items ← separated (do gaps fuel; let v ← item; gaps fuel; return v) fuel
  if !items.isEmpty then discard (maybe (eat ','))
  gaps fuel
  eat ']'
  return .array items

def tablePairs (item : Scan Toml) (fuel : Nat) : Scan Toml := do
  let pair : Scan (List String × String × Toml) := do
    let (path, name) ← key fuel
    eat '='
    blanks
    let v ← item
    blanks
    return (path, name, v)
  let pairs ← separated pair fuel
  blanks
  eat '\x7d'
  match ofPairs? pairs with
  | some v => return v
  | none => failure

def value (fuel : Nat) : Nat → Scan Toml
  | 0 => scalar fuel
  | depth + 1 => do
    match ← peek with
    | some '[' =>
      eat '['
      arrayItems (value fuel depth) fuel
    | some '\x7b' =>
      eat '\x7b'
      tablePairs (value fuel depth) fuel
    | _ => scalar fuel

def pair (fuel : Nat) : Scan Statement := do
  let (path, name) ← key fuel
  eat '='
  blanks
  let v ← value fuel (maxDepth - 1)
  restOfLine
  return .pair path name v

def arrayHeader (fuel : Nat) : Scan Statement := do
  eatAll ['[', '[']
  let (path, name) ← key fuel
  eatAll [']', ']']
  restOfLine
  return .arrayHeader path name

def header (fuel : Nat) : Scan Statement := do
  eat '['
  let (path, name) ← key fuel
  eat ']'
  restOfLine
  return .header path name

def statement (fuel : Nat) : Scan (Option Statement) :=
  (do newline; return none) <|> (do comment; lineEnd; return none)
    <|> (do return some (← arrayHeader fuel)) <|> (do return some (← header fuel))
    <|> (do return some (← pair fuel))

def statements (fuel : Nat) : Nat → Scan (List Statement)
  | 0 => return []
  | n + 1 => do
    blanks
    if ← atEnd then return []
    let s ← statement fuel
    return s.toList ++ (← statements fuel n)

def byteOrderMark : Char := Char.ofNat 0xFEFF

def read? (text : String) : Option (List (String × Toml)) :=
  let s := match text.toList with
    | c :: s => if c = byteOrderMark then s else c :: s
    | [] => []
  (Scan.all? (statements (s.length + 1) (s.length + 1)) s).bind ofStatements?

end Relocate.Toml
