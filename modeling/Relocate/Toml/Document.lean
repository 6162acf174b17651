import Relocate.Toml.Value

namespace Relocate.Toml

inductive Made
  | byHeader
  /-- On the way to a table that a header named. -/
  | onTheWay
  | byDots
  deriving DecidableEq, Repr

inductive Node
  | leaf (v : Toml)
  | table (made : Made) (fields : List (String × Node))
  /-- The tables of an array, the latest first. -/
  | tables (latest : List (List (String × Node)))
  deriving Inhabited

abbrev Nodes := List (String × Node)

inductive Statement
  | header (path : List String) (name : String)
  | arrayHeader (path : List String) (name : String)
  | pair (path : List String) (name : String) (v : Toml)

def replace (key : String) (n : Node) : Nodes → Nodes
  | [] => []
  | f :: fs => if f.1 = key then (key, n) :: fs else f :: replace key n fs

/-- Changes the table at `path` below one with these fields. Tables on the way are made where they
are missing, as `fresh`; of an array the last table is meant. -/
def update (fresh : Made) (change : Made → Nodes → Option Nodes) :
    List String → Made → Nodes → Option Nodes
  | [], made, fs => change made fs
  | key :: path, _, fs =>
    match fs.lookup key with
    | none => (update fresh change path fresh []).map fun sub => fs ++ [(key, .table fresh sub)]
    | some (.leaf _) => none
    | some (.tables []) => none
    | some (.tables (last :: before)) =>
      (update fresh change path .byHeader last).map fun sub =>
        replace key (.tables (sub :: before)) fs
    | some (.table made sub) =>
      if fresh = .byDots ∧ made = .byHeader then none
      else (update fresh change path made sub).map fun sub => replace key (.table made sub) fs

/-- Puts a value under a new key. The table must have come about by the dots before the key, if
there are any. -/
def putPair (dotted : Bool) (name : String) (v : Toml) (made : Made) (fs : Nodes) : Option Nodes :=
  if (made = .byDots) ≠ dotted ∨ (fs.lookup name).isSome then none
  else some (fs ++ [(name, .leaf v)])

def addPair (path : List String) (name : String) (v : Toml) : Made → Nodes → Option Nodes :=
  update .byDots (putPair (!path.isEmpty) name v) path

/-- Opens a table. One on the way to others may be opened later, and then moves to the end. -/
def openTable (name : String) (_ : Made) (fs : Nodes) : Option Nodes :=
  match fs.lookup name with
  | none => some (fs ++ [(name, .table .byHeader [])])
  | some (.table .onTheWay sub) =>
    some (fs.filter (fun f => f.1 ≠ name) ++ [(name, .table .byHeader sub)])
  | some _ => none

def openArrayTable (name : String) (_ : Made) (fs : Nodes) : Option Nodes :=
  match fs.lookup name with
  | none => some (fs ++ [(name, .tables [[]])])
  | some (.tables ts) => some (replace name (.tables ([] :: ts)) fs)
  | some _ => none

structure Draft where
  root : Nodes
  current : List String

namespace Draft

def empty : Draft := ⟨[], []⟩

def add (d : Draft) : Statement → Option Draft
  | .header path name =>
    (update .onTheWay (openTable name) path .byHeader d.root).map fun r => ⟨r, path ++ [name]⟩
  | .arrayHeader path name =>
    (update .onTheWay (openArrayTable name) path .byHeader d.root).map fun r => ⟨r, path ++ [name]⟩
  | .pair path name v =>
    (update .onTheWay (addPair path name v) d.current .byHeader d.root).map fun r =>
      { d with root := r }

end Draft

mutual

def Node.value : Node → Toml
  | .leaf v => v
  | .table _ fs => .table (fieldValues fs)
  | .tables ts => .array (tableValues ts).reverse

def fieldValues : List (String × Node) → List (String × Toml)
  | [] => []
  | (k, n) :: fs => (k, n.value) :: fieldValues fs

def tableValues : List (List (String × Node)) → List Toml
  | [] => []
  | t :: ts => .table (fieldValues t) :: tableValues ts

end

def ofStatements? (ss : List Statement) : Option (List (String × Toml)) :=
  (ss.foldlM Draft.add .empty).map fun d => fieldValues d.root

def ofPairs? (ps : List (List String × String × Toml)) : Option Toml :=
  (ps.foldlM (fun fs p => addPair p.1 p.2.1 p.2.2 .byHeader fs) []).map fun fs =>
    .table (fieldValues fs)

end Relocate.Toml
