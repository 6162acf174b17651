import Relocate.Failure
import Relocate.Host
import Relocate.Number.Shortest
import Relocate.Text.Quoted
import Relocate.Toml.Reader

namespace Relocate

structure Settings where
  /-- The interpreter to use, relative to the project root. -/
  interpreter : Option String
  /-- The engine's own folder, relative to the project root. -/
  libraryFolder : Option String
  /-- Modules that begin like this are not offered for import. -/
  vendorPrefixes : List String
  deriving DecidableEq, Repr

namespace Settings

def default : Settings := ⟨none, none, ["site-packages"]⟩

inductive Misfit
  | unknownField (name : String)
  | unexpected (found : Toml) (expected : String)

namespace Misfit

def describe : Toml → String
  | .string s => "string " ++ Text.quoted s
  | .integer n => s!"integer `{n}`"
  | .float x => "floating point `" ++ x.positionalText ++ "`"
  | .boolean b => s!"boolean `{b}`"
  | .moment => "map"
  | .array _ => "sequence"
  | .table _ => "map"

def message : Misfit → String
  | .unknownField name =>
    s!"unknown field `{name}`, expected one of `python`, `ropefolder`, `vendor_prefixes`"
  | .unexpected found expected => s!"invalid type: {describe found}, expected {expected}"

end Misfit

def text (expected : String) : Toml → Except Misfit String
  | .string s => .ok s
  | v => .error (.unexpected v expected)

def texts : Toml → Except Misfit (List String)
  | .array items => items.mapM (text "a string")
  | v => .error (.unexpected v "a sequence")

def setInterpreter (s : Settings) (v : Toml) : Except Misfit Settings :=
  (text "path string" v).map fun p => { s with interpreter := some p }

def setLibraryFolder (s : Settings) (v : Toml) : Except Misfit Settings :=
  (text "a string" v).map fun p => { s with libraryFolder := some p }

def setVendorPrefixes (s : Settings) (v : Toml) : Except Misfit Settings :=
  (texts v).map fun ps => { s with vendorPrefixes := ps }

def setField (s : Settings) (f : String × Toml) : Except Misfit Settings :=
  if f.1 = "python" then s.setInterpreter f.2
  else if f.1 = "ropefolder" then s.setLibraryFolder f.2
  else if f.1 = "vendor_prefixes" then s.setVendorPrefixes f.2
  else .error (.unknownField f.1)

/-- The settings given by position. More than there are settings are not looked at. -/
def ofItems (items : List Toml) : Except Misfit Settings :=
  (["python", "ropefolder", "vendor_prefixes"].zip items).foldlM setField .default

/-- The name under which a date or time stands where fields are expected. -/
def momentField : String := "$__toml_private_datetime"

def ofToml : Toml → Except Misfit Settings
  | .table fields => fields.foldlM setField .default
  | .array items => ofItems items
  | .moment => .error (.unknownField momentField)
  | v => .error (.unexpected v "struct RopifyConfig")

def ofDocument (fields : List (String × Toml)) : Except Misfit Settings :=
  match fields.lookup "ropify" with
  | none => .ok .default
  | some v => ofToml v

inductive Error
  | unreadable (path : String) (cause : SystemError)
  | malformed (path text : String)
  | misfit (path text : String) (cause : Misfit)

namespace Error

def message (w : Wording) : Error → String
  | .unreadable path cause => s!"failed to read {path}: " ++ cause.message
  | .malformed path text => s!"failed to parse {path}: " ++ w.toml text none
  | .misfit path text cause => s!"failed to parse {path}: " ++ w.toml text (some cause.message)

def failure (w : Wording) (e : Error) : Failure := .configuration (e.message w)

end Error

def load (h : Host) (path : String) : Except Error Settings :=
  match h.files.readText h.folder path with
  | .error e => .error (.unreadable path e)
  | .ok s =>
    match Toml.read? s with
    | none => .error (.malformed path s)
    | some fields =>
      match ofDocument fields with
      | .error e => .error (.misfit path s e)
      | .ok settings => .ok settings

def file (project : String) : String := Path.joinText (Path.joinText project ".ropify") "config.toml"

variable {σ : Type}

/-- The settings of a project; the default ones if it has no file for them. -/
def ofProject (h : Host) (project : String) : Action (Run σ) Error Settings := do
  if h.exists? (file project) then
    Run.log ⟨.settings, .debug, "loading project config", [("path", file project)]⟩
    load h (file project)
  else
    return .default

def effectiveFolder (s : Settings) (flag : Option String) : Option String :=
  flag <|> s.libraryFolder

def interpreterIn (s : Settings) (root : String) : Option String :=
  s.interpreter.map (Path.joinText root)

end Settings

end Relocate
