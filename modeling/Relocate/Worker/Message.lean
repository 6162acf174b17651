import Relocate.Json.Reader
import Relocate.Json.Record

namespace Relocate.Worker

structure Greeting where
  status : String
  version : String
  libraryVersion : String
  deriving DecidableEq, Repr

namespace Greeting

def fieldNames : List String := ["status", "version", "rope_version"]

def ofJson? (v : Json) : Option Greeting := do
  match ← v.columns? fieldNames with
  | [status, version, library] =>
    return ⟨← Json.required status, ← Json.required version, ← Json.optionalText library⟩
  | _ => none

def ofText? (s : List Char) : Option Greeting := (Json.read? .loose s).bind ofJson?

def toJson (g : Greeting) : Json :=
  .object [("rope_version", .string g.libraryVersion), ("status", .string g.status),
    ("version", .string g.version)]

end Greeting

structure Reply where
  id : Option Nat
  status : String
  code : Option String
  message : Option String
  traceback : Option String
  data : Fields
  deriving Inhabited

namespace Reply

def envelope : List String := ["id", "status", "error_code", "message", "traceback"]

def id? : Option Json → Option (Option Nat)
  | none | some .null => some none
  | some (.int n) => if 0 ≤ n then some (some n.toNat) else none
  | some _ => none

/-- The data are all the fields outside the envelope, of a repeated one the last. -/
def ofJson? : Json → Option Reply
  | .object fs => do
    if Json.hasRepeated envelope fs then none
    else return {
      id := ← id? (Fields.get? fs "id")
      status := ← Json.required (Fields.get? fs "status")
      code := ← Json.nullable (Fields.get? fs "error_code")
      message := ← Json.nullable (Fields.get? fs "message")
      traceback := ← Json.nullable (Fields.get? fs "traceback")
      data := Fields.ofList (fs.filter fun f => !envelope.contains f.1) }
  | _ => none

def ofText? (s : List Char) : Option Reply := (Json.read? .strict s).bind ofJson?

def field (name : String) : Option String → Fields
  | none => []
  | some s => [(name, .string s)]

def toJson (r : Reply) : Json :=
  .object (("id", Json.optional (fun n => .int n) r.id) :: ("status", .string r.status)
    :: (field "error_code" r.code ++ field "message" r.message ++ field "traceback" r.traceback
      ++ r.data))

def isError (r : Reply) : Bool := r.status = "error"

end Reply

structure MoveReply where
  handle : String
  name : String
  kind : String
  origin : String
  deriving DecidableEq, Repr

namespace MoveReply

def fieldNames : List String := ["handle", "name", "kind", "origin"]

def ofJson? (v : Json) : Option MoveReply := do
  match ← v.columns? fieldNames with
  | [handle, name, kind, origin] =>
    return ⟨← Json.required handle, ← Json.required name, ← Json.required kind,
      ← Json.required origin⟩
  | _ => none

def ofText? (s : List Char) : Option MoveReply := (Json.read? .loose s).bind ofJson?

def toJson (m : MoveReply) : Json :=
  .object [("handle", .string m.handle), ("kind", .string m.kind), ("name", .string m.name),
    ("origin", .string m.origin)]

end MoveReply

structure ChangesReply where
  handle : String
  description : String
  changed : List String
  deriving DecidableEq, Repr

namespace ChangesReply

def fieldNames : List String := ["handle", "description", "changed"]

def ofJson? (v : Json) : Option ChangesReply := do
  match ← v.columns? fieldNames with
  | [handle, description, changed] =>
    return ⟨← Json.required handle, ← Json.optionalText description, ← Json.optionalTexts changed⟩
  | _ => none

def ofText? (s : List Char) : Option ChangesReply := (Json.read? .loose s).bind ofJson?

def toJson (c : ChangesReply) : Json :=
  .object [("changed", .array (c.changed.map .string)), ("description", .string c.description),
    ("handle", .string c.handle)]

end ChangesReply

end Relocate.Worker
