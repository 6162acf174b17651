namespace Relocate.Imports

def isVendored (prefixes : List String) (module : String) : Bool :=
  prefixes.any fun p => p.toList.isPrefixOf module.toList

def firstOccurrences (seen : List String) : List String → List String
  | [] => []
  | m :: rest =>
    if m ∈ seen then firstOccurrences seen rest else m :: firstOccurrences (m :: seen) rest

/-- The candidates that are not vendored, each once, in the order of their first occurrence. -/
def kept (prefixes candidates : List String) : List String :=
  firstOccurrences [] (candidates.filter fun m => !isVendored prefixes m)

def statement (module name : String) : String := s!"from {module} import {name}"

end Relocate.Imports
