import Relocate.Imports
import Relocate.Session.Basic

namespace Relocate.Command

structure ShowImports where
  name : String
  /-- Modules that begin like this are not shown. -/
  vendorPrefixes : List String
  deriving DecidableEq, Repr

namespace ShowImports

variable {τ : Type}

def noModules (name : String) : Failure := .guard s!"No modules found for `{name}`"

def run (s : Surroundings τ) (c : ShowImports) : Action τ Failure Unit := do
  let candidates ← s.session.importCandidates c.name
  (candidates.filter (Imports.isVendored c.vendorPrefixes)).forM fun m =>
    s.log ⟨.imports, .debug, "skipping vendored import candidate", [("module", m)]⟩
  let modules := Imports.kept c.vendorPrefixes candidates
  s.log ⟨.showImports, .debug, "import candidates",
    [("name", c.name), ("found", toString candidates.length), ("kept", toString modules.length)]⟩
  if modules.isEmpty then throw (noModules c.name)
  modules.forM fun m => s.report [Imports.statement m c.name, "\n"]

end ShowImports

end Relocate.Command
