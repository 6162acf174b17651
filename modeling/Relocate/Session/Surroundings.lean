import Relocate.Report
import Relocate.Session.Basic

namespace Relocate.Surroundings

def ofRun {σ : Type} (h : Host) (s : Session (Run σ)) : Surroundings (Run σ) where
  host := h
  session := s
  ask := Prompt.ask
  write := Report.write
  log := Run.log

end Relocate.Surroundings
