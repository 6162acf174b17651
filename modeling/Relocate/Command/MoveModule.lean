import Relocate.Session.Basic

namespace Relocate.Command

structure MoveModule where
  /-- The file of the module, or the folder of the package. -/
  module : String
  destination : Option String
  deriving DecidableEq, Repr

namespace MoveModule

def question : String := "Enter the new package for the module"

def notFolder : Failure := .guard "The destination must be a folder"

variable {τ : Type}

def target (s : Surroundings τ) (m : MoveModule) : Action τ Failure Place := do
  let path ← s.destination m.destination question
  let place ← s.resolve path .folder
  Action.ensure place.isFolder notFolder
  return place

def missing (place : Place) : Log.Entry :=
  ⟨.moveModule, .info, "destination package does not exist yet", [("package", place.text)]⟩

def run (s : Surroundings τ) (m : MoveModule) : Action τ Failure Unit := do
  let place ← s.resolve m.module .file
  let plan ← s.session.beginMove place none
  s.report ["Moving module `", plan.name, "`\n"]
  s.report ["Module `", plan.name, "` is currently at: ", plan.origin.text, "\n"]
  let place ← m.target s
  s.logIf (!place.onDisk) (missing place)
  let changes ← s.session.changesFor plan place
  s.log ⟨.moveModule, .debug, "computed module move", changes.values⟩
  s.session.apply changes
  s.report ["Module `", plan.name, "` moved to: ", place.text, "\n"]

end MoveModule

end Relocate.Command
