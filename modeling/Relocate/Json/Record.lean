import Relocate.Json.Value

namespace Relocate.Json

def hasRepeated (names : List String) (fs : Fields) : Bool :=
  names.any fun n => 1 < fs.countP fun f => f.1 = n

/-- The values of the named fields. A field may be absent and may not be repeated; an object may
have other fields, an array may not be longer. -/
def columns? (names : List String) : Json → Option (List (Option Json))
  | .object fs => if hasRepeated names fs then none else some (names.map (Fields.get? fs))
  | .array items =>
    if names.length < items.length then none
    else some ((List.range names.length).map fun i => items[i]?)
  | _ => none

def required : Option Json → Option String
  | some v => v.string?
  | none => none

def optionalText : Option Json → Option String
  | some v => v.string?
  | none => some ""

def optionalTexts : Option Json → Option (List String)
  | some (.array items) => items.mapM string?
  | some _ => none
  | none => some []

def nullable : Option Json → Option (Option String)
  | none | some .null => some none
  | some v => v.string?.map some

end Relocate.Json
