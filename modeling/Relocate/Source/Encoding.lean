import Relocate.Text.Utf8

namespace Relocate.Source

open Utf8 (Bytes)

def head (data : Bytes) : Bytes :=
  let (first, rest) := data.span (· ≠ 10)
  match rest with
  | [] => first
  | b :: rest => first ++ b :: rest.takeWhile (· ≠ 10)

def after? (word : Bytes) : Bytes → Option Bytes
  | [] => if word.isEmpty then some [] else none
  | b :: s => if word.isPrefixOf (b :: s) then some ((b :: s).drop word.length) else after? word s

def isSpace (b : UInt8) : Bool := b = 32 || b = 9 || b = 10 || b = 12 || b = 13

def isLetter (b : UInt8) : Bool := (65 ≤ b && b ≤ 90) || (97 ≤ b && b ≤ 122)

def isDigit (b : UInt8) : Bool := 48 ≤ b && b ≤ 57

def isNameByte (b : UInt8) : Bool := isLetter b || isDigit b || b = 45 || b = 95

/-- The name declared right after `coding` in the first two lines. Only the first occurrence of that
word counts. -/
def declaredName? (data : Bytes) : Option Bytes := do
  match ← after? (Utf8.encode "coding") (head data) with
  | [] => none
  | b :: s =>
    if b = 61 ∨ b = 58 then
      let name := (s.dropWhile isSpace).takeWhile isNameByte
      if name.isEmpty then none else some name
    else none

def lower (b : UInt8) : UInt8 := if 65 ≤ b && b ≤ 90 then b + 32 else b

def canonicalName (name : Bytes) : Bytes := (name.filter fun b => b ≠ 45 ∧ b ≠ 95).map lower

def nameText (name : Bytes) : String := String.ofList (name.map fun b => Char.ofNat b.toNat)

inductive Encoding
  /-- UTF-8, with a byte order mark at the front dropped or kept. -/
  | utf8 (dropsMark : Bool)
  /-- One character may span several bytes in a way that is not followed here. -/
  | multibyte (name : String)
  | bytewise
  deriving DecidableEq, Repr

namespace Encoding

def utf8Names : List String := ["utf8", "u8", "utf", "cp65001"]

def multibyteFamilies : List String := ["utf16", "utf32", "utf7", "iso2022"]

def multibyteNames : List String :=
  ["shiftjis", "sjis", "cp932", "mskanji", "eucjp", "gbk", "gb2312", "gb18030", "big5", "big5hkscs",
    "cp950", "cp949", "euckr", "johab", "hz"]

def isMultibyte (name : String) : Bool :=
  multibyteFamilies.any (fun f => f.toList.isPrefixOf name.toList) || multibyteNames.contains name

/-- The encoding a canonical name stands for. A name that is not known stands for one of single
bytes. -/
def ofName (name : String) : Encoding :=
  if utf8Names.contains name then .utf8 false
  else if name = "utf8sig" then .utf8 true
  else if isMultibyte name then .multibyte name
  else .bytewise

end Encoding

def encoding (data : Bytes) : Encoding :=
  match declaredName? data with
  | none => .utf8 false
  | some name => .ofName (nameText (canonicalName name))

end Relocate.Source
