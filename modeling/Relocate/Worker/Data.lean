import Relocate.Json.Writer
import Relocate.Text.Quoted
import Relocate.Worker.Message

namespace Relocate.Worker

inductive DataError
  | unexpected (found : Json) (expected : String)
  | missing (field : String)

namespace DataError

def describe : Json → String
  | .null => "null"
  | .bool b => s!"boolean `{b}`"
  | .int n => s!"integer `{n}`"
  | .float x => "floating point `" ++ x.compactText ++ "`"
  | .string s => "string " ++ Text.quoted s
  | .array _ => "sequence"
  | .object _ => "map"

def message : DataError → String
  | .unexpected found expected => s!"invalid type: {describe found}, expected {expected}"
  | .missing field => s!"missing field `{field}`"

end DataError

namespace Data

def text : Json → Except DataError String
  | .string s => .ok s
  | v => .error (.unexpected v "a string")

def texts : Json → Except DataError (List String)
  | .array items => items.mapM text
  | v => .error (.unexpected v "a sequence")

def field? {α : Type} (read : Json → Except DataError α) (fs : Fields) (name : String) :
    Except DataError (Option α) :=
  match Fields.get? fs name with
  | none => .ok none
  | some v => (read v).map some

def need {α : Type} (name : String) : Option α → Except DataError α
  | some a => .ok a
  | none => .error (.missing name)

end Data

def MoveReply.ofData (fs : Fields) : Except DataError MoveReply := do
  let handle ← Data.field? Data.text fs "handle"
  let kind ← Data.field? Data.text fs "kind"
  let name ← Data.field? Data.text fs "name"
  let origin ← Data.field? Data.text fs "origin"
  let handle ← Data.need "handle" handle
  let name ← Data.need "name" name
  let kind ← Data.need "kind" kind
  let origin ← Data.need "origin" origin
  return ⟨handle, name, kind, origin⟩

def ChangesReply.ofData (fs : Fields) : Except DataError ChangesReply := do
  let changed ← Data.field? Data.texts fs "changed"
  let description ← Data.field? Data.text fs "description"
  let handle ← Data.field? Data.text fs "handle"
  let handle ← Data.need "handle" handle
  return ⟨handle, description.getD "", changed.getD []⟩

def modulesOfData (fs : Fields) : Except DataError (List String) :=
  match Fields.get? fs "modules" with
  | none => .ok []
  | some v => Data.texts v

end Relocate.Worker
