import Relocate.Project.Place
import Relocate.Worker.Link

namespace Relocate.Worker.Link

def text (s : String) : Json := .string s

def fromData {α : Type} (r : Except DataError α) : Act α :=
  match r with
  | .ok a => return a
  | .error e => throw (.data e)

def openProject (root : String) (libraryFolder : Option String) : Act String := do
  let reply ← send "open_project"
    [("root", text root), ("ropefolder", Json.optional text libraryFolder)]
  match (Fields.get? reply.data "root").bind Json.string? with
  | some s => return s
  | none => throw (.invalidReply "missing root in open_project response")

/-- Prepares a move of what stands at a character of a file, or of the whole module. -/
def createMove (path : String) (index : Option Nat) : Act MoveReply := do
  let reply ← send "create_move"
    [("path", text path), ("offset", Json.optional (fun n => .int n) index)]
  fromData (MoveReply.ofData reply.data)

def isPythonFile (path : String) (kind : String) : Act Bool := do
  let reply ← send "is_python_file" [("path", text path), ("kind", text kind)]
  return ((Fields.get? reply.data "python_file").bind Json.bool?).getD false

def getChanges (move destination kind : String) : Act ChangesReply := do
  let reply ← send "get_changes"
    [("move", text move), ("destination", text destination), ("kind", text kind)]
  fromData (ChangesReply.ofData reply.data)

def applyChanges (changes : String) : Act Unit := do
  discard (send "apply_changes" [("changes", text changes)])

def importCandidates (name : String) : Act (List String) := do
  let reply ← send "import_candidates" [("name", text name)]
  fromData (modulesOfData reply.data)

end Relocate.Worker.Link
