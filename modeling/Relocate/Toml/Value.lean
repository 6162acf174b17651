import Relocate.Number.Binary64

namespace Relocate

inductive Toml
  | string (s : String)
  | integer (n : Int)
  | float (x : Binary64)
  | boolean (b : Bool)
  /-- A date or a time, of which only the form matters. -/
  | moment
  | array (items : List Toml)
  | table (fields : List (String × Toml))
  deriving Inhabited

end Relocate
