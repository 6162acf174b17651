import Relocate.Json.Token

namespace Relocate.Json

/-- An open array or object: its items so far, the latest first. Of an object, `key` belongs to the
value that is read next. -/
inductive Frame
  | array (items : List Json)
  | object (fields : List (String × Json)) (key : String)

inductive Stage
  | value
  | valueOrEnd
  | key
  | keyOrEnd
  | colon
  | commaOrEnd

/-- How much of what is well formed is accepted. -/
inductive Rule
  /-- Every string is text, every number has a value, and fewer than 128 brackets are open. -/
  | strict
  /-- The form alone counts: `null` stands for what has no value. -/
  | loose
  deriving DecidableEq

inductive Reader
  | reading (opened : List Frame) (stage : Stage)
  | finished (v : Json)

namespace Reader

def maxDepth : Nat := 127

def start : Reader := .reading [] .value

def put (v : Json) : List Frame → Reader
  | [] => .finished v
  | .array items :: st => .reading (.array (v :: items) :: st) .commaOrEnd
  | .object fs key :: st => .reading (.object ((key, v) :: fs) key :: st) .commaOrEnd

def enter (rule : Rule) (f : Frame) (st : List Frame) (stage : Stage) : Option Reader :=
  if rule = .strict ∧ maxDepth ≤ st.length then none else some (.reading (f :: st) stage)

def worth (rule : Rule) (v : Option Json) : Option Json :=
  match rule with
  | .strict => v
  | .loose => some (v.getD .null)

/-- The key a word spells. Only keys of the outermost object must be text under the loose rule. -/
def keyText (rule : Rule) (st : List Frame) (s : Option String) : Option String :=
  if rule = .loose ∧ st ≠ [] then some (s.getD "") else s

def closeObject (fs : List (String × Json)) (st : List Frame) : Reader :=
  put (.object (if st.isEmpty then fs.reverse else Fields.ofList fs.reverse)) st

def value (rule : Rule) (st : List Frame) : Token → Option Reader
  | .beginObject => enter rule (.object [] "") st .keyOrEnd
  | .beginArray => enter rule (.array []) st .valueOrEnd
  | .text s => (worth rule (s.map .string)).map (put · st)
  | .scalar v => (worth rule v).map (put · st)
  | _ => none

def step (rule : Rule) : Reader → Token → Option Reader
  | .reading st .value, t => value rule st t
  | .reading (.array items :: st) .valueOrEnd, .endArray => some (put (.array items.reverse) st)
  | .reading st .valueOrEnd, t => value rule st t
  | .reading (.object fs _ :: st) .keyOrEnd, .endObject => some (closeObject fs st)
  | .reading (.object fs _ :: st) .keyOrEnd, .text s =>
    (keyText rule st s).map fun k => .reading (.object fs k :: st) .colon
  | .reading (.object fs _ :: st) .key, .text s =>
    (keyText rule st s).map fun k => .reading (.object fs k :: st) .colon
  | .reading st .colon, .colon => some (.reading st .value)
  | .reading (.array items :: st) .commaOrEnd, .comma => some (.reading (.array items :: st) .value)
  | .reading (.array items :: st) .commaOrEnd, .endArray => some (put (.array items.reverse) st)
  | .reading (.object fs k :: st) .commaOrEnd, .comma => some (.reading (.object fs k :: st) .key)
  | .reading (.object fs _ :: st) .commaOrEnd, .endObject => some (closeObject fs st)
  | _, _ => none

def run (rule : Rule) (r : Reader) : List Token → Option Reader
  | [] => some r
  | t :: ts => (step rule r t).bind fun r => run rule r ts

def result? : Reader → Option Json
  | .finished v => some v
  | .reading _ _ => none

end Reader

def read? (rule : Rule) (s : List Char) : Option Json := do
  (← Reader.run rule .start (← Token.ofText s)).result?

end Relocate.Json
