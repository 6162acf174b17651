import Relocate.Failure
import Relocate.Run

namespace Relocate.Report

def roomAfter (text : String) (room : Nat) : Nat := room - text.toList.count '\n'

variable {σ : Type}

def write (text : String) : Action (Run σ) SystemError Unit := do
  if text = "" then return
  match (← get).room with
  | some 0 => throw (.other "report stream full")
  | room =>
    modify fun r => { r with room := room.map (roomAfter text) }
    Run.record (.reported text)

end Relocate.Report
