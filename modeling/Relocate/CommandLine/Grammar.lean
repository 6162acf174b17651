import Relocate.Host
import Relocate.Number.Natural
import Relocate.Text.Split
import Relocate.Text.Unstyled

namespace Relocate.CommandLine

inductive Verb
  | move
  | moveModule
  | showImports
  deriving DecidableEq, Repr

inductive Slot
  | python
  | logLevel
  | destination
  | project
  | libraryFolder
  | sourceFile
  | module
  | offset
  | name
  deriving DecidableEq, Repr

namespace Verb

def names : Verb → List String
  | .move => ["move", "move-symbol", "move-definition"]
  | .moveModule => ["move-module"]
  | .showImports => ["show-imports", "show-autoimports"]

def all : List Verb := [.move, .moveModule, .showImports]

def ofName? (s : String) : Option Verb := all.find? fun v => v.names.contains s

def about : Verb → String
  | .move => "Move the definition of a class or function to another file"
  | .moveModule => "Move a module into another package"
  | .showImports => "Show import statements that provide a name"

def places : Verb → List Slot
  | .move => [.sourceFile, .offset]
  | .moveModule => [.module]
  | .showImports => [.name]

def options : Verb → List Slot
  | .move | .moveModule => [.destination, .project, .libraryFolder]
  | .showImports => [.project, .libraryFolder]

end Verb

def about : String := "Move Python definitions and modules with rope"

def helpAbout : String := "Print this message or the help of the given subcommand(s)"

def version : String := "ropify 0.1.0"

/-- The options that stand before a command or after it. -/
def globalOptions : List Slot := [.python, .logLevel]

def levels : List (String × Log.Level) :=
  [("trace", .trace), ("debug", .debug), ("info", .info), ("warn", .warn), ("error", .error)]

namespace Slot

def optionName : Slot → String
  | .python => "python"
  | .logLevel => "log-level"
  | .destination => "destination"
  | .project => "project"
  | .libraryFolder => "ropefolder"
  | _ => ""

def text : Slot → String
  | .python => "--python <PYTHON>"
  | .logLevel => "--log-level <LOG_LEVEL>"
  | .destination => "--destination <DESTINATION>"
  | .project => "--project <PROJECT>"
  | .libraryFolder => "--ropefolder <ROPEFOLDER>"
  | .sourceFile => "<RESOURCE>"
  | .module => "<RESOURCE>"
  | .offset => "<OFFSET>"
  | .name => "<NAME>"

def choices : Slot → String
  | .logLevel => "\n  [possible values: " ++ ", ".intercalate (levels.map (·.1)) ++ "]"
  | _ => ""

end Slot

inductive Misuse
  | unrecognizedCommand (word : String)
  | unexpectedArgument (word : String)
  | unexpectedValue (value flag : String)
  | valueRequired (slot : Slot)
  | repeated (slot : Slot)
  | invalidValue (value : String) (slot : Slot)
  /-- A value that the slot refuses for a reason. -/
  | refused (value : String) (slot : Slot) (reason : String)
  | missing (slots : List Slot)
  | noCommand
  deriving DecidableEq, Repr

namespace Misuse

def allNames : List String := Verb.all.flatMap Verb.names ++ ["help"]

def repeatedWord (word : String) : String := "'" ++ Text.unstyled word ++ "'"

def text : Misuse → String
  | .unrecognizedCommand word => "unrecognized subcommand " ++ repeatedWord word
  | .unexpectedArgument word => "unexpected argument " ++ repeatedWord word ++ " found"
  | .unexpectedValue value flag =>
    "unexpected value " ++ repeatedWord value ++ " for '" ++ flag
      ++ "' found; no more were expected"
  | .valueRequired slot =>
    "a value is required for '" ++ slot.text ++ "' but none was supplied" ++ slot.choices
  | .repeated slot => "the argument '" ++ slot.text ++ "' cannot be used multiple times"
  | .invalidValue value slot =>
    "invalid value " ++ repeatedWord value ++ " for '" ++ slot.text ++ "'" ++ slot.choices
  | .refused value slot reason =>
    "invalid value " ++ repeatedWord value ++ " for '" ++ slot.text ++ "': "
      ++ Text.unstyled reason
  | .missing slots =>
    "the following required arguments were not provided:"
      ++ String.join (slots.map fun s => "\n  " ++ s.text)
  | .noCommand =>
    "'ropify' requires a subcommand but one was not provided\n  [subcommands: "
      ++ ", ".intercalate allNames ++ "]"

def message (m : Misuse) : String := Text.firstParagraph ("error: " ++ m.text)

end Misuse

namespace Slot

def refuse (value : String) (slot : Slot) (reason : String) : Except Misuse Unit :=
  .error (.refused value slot reason)

def check (h : Host) (slot : Slot) (value : String) : Except Misuse Unit :=
  match slot with
  | .python | .destination => if value = "" then .error (.valueRequired slot) else .ok ()
  | .logLevel =>
    if value = "" then .error (.valueRequired slot)
    else if (levels.lookup value).isSome then .ok () else .error (.invalidValue value slot)
  | .project =>
    if h.isFolder value then .ok ()
    else refuse value slot ("directory '" ++ value ++ "' does not exist")
  | .sourceFile =>
    if h.isFile value then .ok ()
    else if h.isFolder value then
      refuse value slot ("'" ++ value ++ "' is a directory, expected a file")
    else refuse value slot ("file '" ++ value ++ "' does not exist")
  | .module =>
    if h.exists? value then .ok ()
    else refuse value slot ("path '" ++ value ++ "' does not exist")
  | .offset =>
    match Natural.read Natural.max64 value.toList with
    | .ok _ => .ok ()
    | .error e => refuse value slot e.message
  | .libraryFolder | .name => .ok ()

end Slot

end Relocate.CommandLine
