import Relocate.Json.Numeral

namespace Relocate.Json

inductive Token
  | beginObject
  | endObject
  | beginArray
  | endArray
  | comma
  | colon
  | text (s : Option String)
  | scalar (v : Option Json)

namespace Token

def hexValue? (c : Char) : Option Nat :=
  if c.isDigit then some (c.toNat - 48)
  else if 'a' ≤ c ∧ c ≤ 'f' then some (c.toNat - 87)
  else if 'A' ≤ c ∧ c ≤ 'F' then some (c.toNat - 55)
  else none

def unit? : List Char → Option (Nat × List Char)
  | a :: b :: c :: d :: s => do
    let a ← hexValue? a
    let b ← hexValue? b
    let c ← hexValue? c
    let d ← hexValue? d
    return (((a * 16 + b) * 16 + c) * 16 + d, s)
  | _ => none

theorem length_unit? {s r : List Char} {n : Nat} (h : unit? s = some (n, r)) :
    r.length < s.length := by
  match s with
  | a :: b :: c :: d :: s =>
    simp only [unit?, Option.bind_eq_bind, Option.bind_eq_some_iff, Option.pure_def,
      Option.some.injEq, Prod.mk.injEq] at h
    obtain ⟨_, _, _, _, _, _, _, _, _, rfl⟩ := h
    simp only [List.length_cons]
    omega
  | [] | [_] | [_, _] | [_, _, _] => simp [unit?] at h

def lowHalf? : List Char → Option (Nat × List Char)
  | '\\' :: 'u' :: s => (unit? s).filter fun p => 0xDC00 ≤ p.1 && p.1 ≤ 0xDFFF
  | _ => none

theorem length_lowHalf? {s r : List Char} {n : Nat} (h : lowHalf? s = some (n, r)) :
    r.length < s.length := by
  unfold lowHalf? at h
  split at h
  · have := length_unit? (Option.filter_eq_some_iff.mp h).1
    simp; omega
  · simp at h

def simpleEscape? : Char → Option Char
  | '"' => some '"'
  | '\\' => some '\\'
  | '/' => some '/'
  | 'b' => some '\x08'
  | 'f' => some '\x0c'
  | 'n' => some '\n'
  | 'r' => some '\r'
  | 't' => some '\t'
  | _ => none

/-- The rest of a string after its opening quote, and what follows the closing one. `seen` is the
text so far, backwards, and nothing once an escape named half a pair. -/
def quoted (seen : Option (List Char)) : List Char → Option (Option String × List Char)
  | [] => none
  | '"' :: s => some (seen.map fun cs => String.ofList cs.reverse, s)
  | '\\' :: 'u' :: s =>
    match h : unit? s with
    | none => none
    | some (n, r) =>
      have := length_unit? h
      if 0xD800 ≤ n ∧ n ≤ 0xDBFF then
        match h' : lowHalf? r with
        | some (m, r') =>
          have := length_lowHalf? h'
          quoted (seen.map (Char.ofNat (0x10000 + (n - 0xD800) * 0x400 + (m - 0xDC00)) :: ·)) r'
        | none => quoted none r
      else if 0xDC00 ≤ n ∧ n ≤ 0xDFFF then quoted none r
      else quoted (seen.map (Char.ofNat n :: ·)) r
  | '\\' :: c :: s =>
    match simpleEscape? c with
    | some x => quoted (seen.map (x :: ·)) s
    | none => none
  | c :: s => if c.toNat < 32 ∨ c = '\\' then none else quoted (seen.map (c :: ·)) s
termination_by s => s.length
decreasing_by all_goals simp_all; try omega

def isSpace (c : Char) : Bool := c = ' ' || c = '\n' || c = '\t' || c = '\r'

def after? (word s : List Char) : Option (List Char) :=
  if word.isPrefixOf s then some (s.drop word.length) else none

def read? (c : Char) (s : List Char) : Option (Token × List Char) :=
  match c with
  | '\x7b' => some (.beginObject, s)
  | '\x7d' => some (.endObject, s)
  | '[' => some (.beginArray, s)
  | ']' => some (.endArray, s)
  | ',' => some (.comma, s)
  | ':' => some (.colon, s)
  | '"' => (quoted (some []) s).map fun p => (.text p.1, p.2)
  | 'n' => (after? "ull".toList s).map fun r => (.scalar (some .null), r)
  | 't' => (after? "rue".toList s).map fun r => (.scalar (some (.bool true)), r)
  | 'f' => (after? "alse".toList s).map fun r => (.scalar (some (.bool false)), r)
  | c => (Numeral.read? (c :: s)).map fun p => (.scalar p.1.value?, p.2)

/-- The words of a text, one after the other; `fuel` bounds their number. -/
def scan : Nat → List Char → List Token → Option (List Token)
  | _, [], done => some done.reverse
  | 0, _, _ => none
  | fuel + 1, c :: s, done =>
    if isSpace c then scan fuel s done
    else
      match read? c s with
      | none => none
      | some (t, r) => scan fuel r (t :: done)

def ofText (s : List Char) : Option (List Token) := scan s.length s []

end Token

end Relocate.Json
