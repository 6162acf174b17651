import Relocate.Text.Split
import Relocate.Text.Utf8

namespace Relocate

open Utf8 (Bytes)

instance : Coe String Bytes := ⟨Utf8.encode⟩

/-- What a path comes to: the names from the root down. To the system names and paths are bytes, be
they text or not. -/
abbrev Location := List Bytes

namespace Path

def slash : UInt8 := 0x2F

def dot : UInt8 := 0x2E

end Path

namespace Location

def written (l : Location) : Bytes := Path.slash :: Text.joinWith Path.slash l

end Location

namespace Path

inductive Step
  /-- To remain at a folder: `.`, or nothing between two slashes. -/
  | stay
  | up
  | down (name : Bytes)
  deriving DecidableEq, Repr

def isAbsolute (path : Bytes) : Bool := path.head? = some slash

def stepOf (name : Bytes) : Step :=
  if name = [] ∨ name = [dot] then .stay else if name = [dot, dot] then .up else .down name

def steps (path : Bytes) : List Step := (Text.splitAt slash path).map stepOf

def start (folder : Location) (path : Bytes) : Location := if isAbsolute path then [] else folder

section

variable {α : Type} [DecidableEq α]

/-- `path` taken relative to `base`. What begins with a slash stays as it is. -/
def joinAt (slash : α) (base path : List α) : List α :=
  if path.head? = some slash ∨ base = [] then path
  else if base.getLast? = some slash then base ++ path
  else base ++ slash :: path

end

def join (base path : Bytes) : Bytes := joinAt slash base path

def joinText (base path : String) : String := .ofList (joinAt '/' base.toList path.toList)

/-- One step without a look at the file system; above the root is the root. -/
def lexicalStep (here : Location) : Step → Location
  | .stay => here
  | .up => here.dropLast
  | .down name => here ++ [name]

def lexical (folder : Location) (path : Bytes) : Location :=
  (steps path).foldl lexicalStep (start folder path)

inductive Part
  | root
  | here
  | up
  | name (s : Bytes)
  deriving DecidableEq, Repr

def partOf? : Step → Option Part
  | .stay => none
  | .up => some .up
  | .down s => some (.name s)

/-- The parts of a path. `.` is a part only at the front. -/
def parts (path : Bytes) : List Part :=
  (if isAbsolute path then [.root]
    else if (Text.splitAt slash path).head? = some [dot] then [.here] else [])
    ++ (steps path).filterMap partOf?

def locationParts (l : Location) : List Part := .root :: l.map .name

def Part.bytes : Part → Bytes
  | .root => [slash]
  | .here => [dot]
  | .up => [dot, dot]
  | .name s => s

end Path

end Relocate
