namespace Relocate.Text.Unstyled

inductive Position
  | outside
  | escape
  /-- In an escape sequence that goes on. -/
  | longEscape
  /-- In a sequence that was opened by a bracket. A letter ends it. -/
  | bracket
  /-- In a title, which the bell ends. -/
  | title
  /-- In any other string of control. -/
  | string
  deriving DecidableEq, Repr

def isSpacing (c : Char) : Bool := c = '\t' || c = '\n' || c = '\x0c' || c = '\r'

def isPlain (c : Char) : Bool := isSpacing c || (' ' ≤ c && c ≠ '\x7f')

def endsString (c : Char) : Bool := (String.utf8EncodeChar c).contains 0x9C

namespace Position

/-- Whether a character is shown. Within short sequences blank space is. -/
def shows (p : Position) (c : Char) : Bool :=
  match p with
  | outside => isPlain c
  | escape | longEscape | bracket => isSpacing c
  | title | string => false

def next (p : Position) (c : Char) : Position :=
  if c = '\x1b' then escape
  else if c = '\x18' || c = '\x1a' then outside
  else
    match p with
    | outside => outside
    | escape =>
      if c = '[' then bracket
      else if c = ']' then title
      else if c = 'P' || c = 'X' || c = '^' || c = '_' then string
      else if ' ' ≤ c && c ≤ '/' then longEscape
      else if '0' ≤ c && c ≤ '~' then outside
      else escape
    | longEscape => if '0' ≤ c && c ≤ '~' then outside else longEscape
    | bracket => if '@' ≤ c && c ≤ '~' then outside else bracket
    | title => if c = '\x07' then outside else title
    | string => if endsString c then outside else string

end Position

/-- What is shown of a text. Once something is shown, so is all that follows up to the next control
character, where the sequence goes on. A character beyond the first 128 ends it. -/
def shown (p : Position) (showing : Bool) : List Char → List Char
  | [] => []
  | c :: s =>
    if showing && isPlain c || p.shows c then
      c :: shown (if c.toNat < 128 then p else .outside) true s
    else shown (p.next c) false s

end Unstyled

def unstyled (s : String) : String := String.ofList (Unstyled.shown .outside false s.toList)

end Relocate.Text
