import Relocate.Text.Quoted

namespace Relocate.Log

inductive Level
  | error
  | warn
  | info
  | debug
  | trace
  deriving DecidableEq, Repr

/-- How many levels are at most as verbose. -/
def Level.rank : Level → Nat
  | .error => 1
  | .warn => 2
  | .info => 3
  | .debug => 4
  | .trace => 5

inductive Part
  | settings
  | source
  | imports
  | discovery
  | worker
  | session
  | move
  | moveModule
  | showImports
  deriving DecidableEq, Repr

def Part.target : Part → String
  | .settings => "ropify_core::config"
  | .source => "ropify_core::resource"
  | .imports => "ropify_core::imports"
  | .discovery => "ropify_rope::env"
  | .worker => "ropify_rope::worker"
  | .session => "ropify_rope::backend"
  | .move => "ropify::commands::move_definition"
  | .moveModule => "ropify::commands::move_module"
  | .showImports => "ropify::commands::show_imports"

structure Entry where
  part : Part
  level : Level
  text : String
  /-- The values that go with the text, each with its name. -/
  values : List (String × String)
  deriving DecidableEq, Repr

def listed (items : List String) : String :=
  "[" ++ ", ".intercalate (items.map Text.quoted) ++ "]"

def optional : Option Nat → String
  | none => "None"
  | some n => "Some(" ++ toString n ++ ")"

namespace Entry

def fields (e : Entry) : List String := "message" :: e.values.map (·.1)

def written (e : Entry) : String :=
  e.text ++ String.join (e.values.map fun v => " " ++ v.1 ++ "=" ++ v.2)

end Entry

end Relocate.Log
