import Relocate.Session.Basic

namespace Relocate.Session

inductive Call
  | beginMove (path : String) (index : Option Nat)
  | isSourceFile (path : String)
  | changesFor (plan : String) (target : Place)
  | apply (changes : ChangeSet)
  | importCandidates (name : String)
  deriving DecidableEq, Repr

structure Script where
  root : Utf8.Bytes
  /-- The plans by the character they begin at. -/
  plans : List (Option Nat × MovePlan)
  candidates : List String
  refusal : Call → Option Failure

namespace Script

variable {α : Type}

abbrev Calls := List Call

def call (s : Script) (c : Call) : Action (Run Calls) Failure Unit := do
  modify fun r => { r with engine := r.engine ++ [c] }
  match s.refusal c with
  | some e => throw e
  | none => return

def isPythonFile (p : Place) : Bool := !p.isFolder && ".py".toList.isSuffixOf p.path.toList

def unresolvable : Failure := .engine "RefactoringError" "Unresolvable name selected" none

def session (s : Script) (h : Host) : Session (Run Calls) where
  root := s.root
  resolve := resolver h s.root
  beginMove place index := do
    s.call (.beginMove place.path index)
    match s.plans.lookup index with
    | some plan => return plan
    | none => throw unresolvable
  isSourceFile place := do
    s.call (.isSourceFile place.path)
    return isPythonFile place
  changesFor plan target := do
    s.call (.changesFor plan.handle target)
    return ⟨"changes-1", "Moving " ++ plan.name, [plan.origin.path, target.path]⟩
  apply changes := s.call (.apply changes)
  importCandidates name := do
    s.call (.importCandidates name)
    return s.candidates

end Script

end Relocate.Session
