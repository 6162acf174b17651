import Relocate.Number.Binary64

namespace Relocate

inductive Json
  | null
  | bool (b : Bool)
  | int (n : Int)
  | float (x : Binary64)
  | string (s : String)
  | array (items : List Json)
  | object (fields : List (String × Json))
  deriving Inhabited

abbrev Fields := List (String × Json)

namespace Fields

def insert (key : String) (v : Json) : Fields → Fields
  | [] => [(key, v)]
  | f :: fs =>
    if key < f.1 then (key, v) :: f :: fs
    else if key = f.1 then (key, v) :: fs
    else f :: insert key v fs

/-- Of fields with one key the last one stays. -/
def ofList (fs : List (String × Json)) : Fields := fs.foldl (fun acc f => acc.insert f.1 f.2) []

def get? (fs : Fields) (key : String) : Option Json := fs.lookup key

end Fields

namespace Json

def optional {α : Type} (f : α → Json) : Option α → Json
  | none => .null
  | some a => f a

def field? (key : String) : Json → Option Json
  | .object fs => Fields.get? fs key
  | _ => none

def bool? : Json → Option Bool
  | .bool b => some b
  | _ => none

def string? : Json → Option String
  | .string s => some s
  | _ => none

end Json

end Relocate
