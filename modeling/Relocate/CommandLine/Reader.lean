import Relocate.Command.Move
import Relocate.Command.MoveModule
import Relocate.CommandLine.Grammar

namespace Relocate.CommandLine

inductive Stop
  | help (about : String)
  /-- There was no word at all. -/
  | nothing
  | version
  | misuse (m : Misuse)
  deriving DecidableEq, Repr

abbrev Given := List (Slot × String)

/-- A value that is not checked yet. An option may still wait for its value. -/
structure Pending where
  slot : Slot
  value : Option String
  deriving DecidableEq, Repr

/-- How far the words of one level are read: those before the command, or those after it. -/
structure Progress where
  given : Given
  pending : Option Pending
  /-- The plain values that may still come. -/
  places : List Slot
  /-- Whether `--` has been passed, after which there are no options. -/
  plain : Bool
  deriving DecidableEq, Repr

def misuse {α : Type} (m : Misuse) : Except Stop α := .error (.misuse m)

namespace Progress

def start (places : List Slot) : Progress := ⟨[], none, places, false⟩

def accept (h : Host) (p : Progress) (slot : Slot) (value : String) : Except Stop Progress :=
  if p.given.any (·.1 = slot) then misuse (.repeated slot)
  else
    match slot.check h value with
    | .ok () => .ok { p with given := p.given ++ [(slot, value)], pending := none }
    | .error m => misuse m

def settle (h : Host) (p : Progress) : Except Stop Progress :=
  match p.pending with
  | none => .ok p
  | some ⟨slot, none⟩ => misuse (.valueRequired slot)
  | some ⟨slot, some value⟩ => p.accept h slot value

def isWaiting (p : Progress) : Bool :=
  match p.pending with
  | some ⟨_, none⟩ => true
  | _ => false

def supply (p : Progress) (value : String) : Progress :=
  { p with pending := p.pending.map fun q => ⟨q.slot, some value⟩ }

end Progress

def long? (word : String) : Option (String × Option String) :=
  match word.toList with
  | '-' :: '-' :: s =>
    let name := String.ofList (s.takeWhile (· ≠ '='))
    match s.dropWhile (· ≠ '=') with
    | [] => some (name, none)
    | _ :: value => some (name, some (String.ofList value))
  | _ => none

def short? (word : String) : Option Char :=
  match word.toList with
  | '-' :: c :: _ => if c = '-' then none else some c
  | _ => none

inductive Scope
  | outer
  | inner (v : Verb)
  deriving DecidableEq, Repr

namespace Scope

def options : Scope → List Slot
  | .outer => globalOptions
  | .inner v => v.options ++ globalOptions

def about : Scope → String
  | .outer => CommandLine.about
  | .inner v => v.about

def flag? (s : Scope) (name : String) : Option Stop :=
  if name = "help" then some (.help s.about)
  else if name = "version" ∧ s = .outer then some .version
  else none

def shortFlag? (s : Scope) (c : Char) : Option Stop :=
  if c = 'h' then some (.help s.about)
  else if c = 'V' ∧ s = .outer then some .version
  else none

end Scope

def help : List String → Stop
  | [] => .help about
  | word :: rest =>
    let found :=
      if word = "help" then some helpAbout else (Verb.ofName? word).map Verb.about
    match found, rest with
    | none, _ => .misuse (.unrecognizedCommand word)
    | some text, [] => .help text
    | some _, next :: _ => .misuse (.unrecognizedCommand next)

def takeLong (h : Host) (s : Scope) (p : Progress) (name : String) (value : Option String) :
    Except Stop Progress :=
  match s.flag? name with
  | some stop =>
    match value with
    | some v => misuse (.unexpectedValue v ("--" ++ name))
    | none => do
      discard (p.settle h)
      throw stop
  | none =>
    match s.options.find? fun slot => slot.optionName = name with
    | none => misuse (.unexpectedArgument ("--" ++ name))
    | some slot => do
      let p ← p.settle h
      match value with
      | some v => p.accept h slot v
      | none => return { p with pending := some ⟨slot, none⟩ }

/-- A word with one dash in front. No option has a short form. -/
def takeShort (h : Host) (s : Scope) (p : Progress) (c : Char) : Except Stop Progress :=
  match s.shortFlag? c with
  | some stop => do
    discard (p.settle h)
    throw stop
  | none => misuse (.unexpectedArgument ("-" ++ String.singleton c))

def surplus (s : Scope) (p : Progress) (word : String) : Misuse :=
  match s with
  | .inner _ => .unexpectedArgument word
  | .outer =>
    if p.plain ∧ Misuse.allNames.contains word then .unexpectedArgument word
    else .unrecognizedCommand word

def takePlain (h : Host) (s : Scope) (p : Progress) (word : String) : Except Stop Progress :=
  match p.places with
  | [] => misuse (surplus s p word)
  | slot :: places => do
    let p ← p.settle h
    return { p with pending := some ⟨slot, some word⟩, places := places }

def take (h : Host) (s : Scope) (p : Progress) (word : String) : Except Stop Progress :=
  if p.plain then takePlain h s p word
  else if word = "--" then .ok { p with plain := true }
  else
    match long? word with
    | some (name, value) => takeLong h s p name value
    | none =>
      match short? word with
      | some c => takeShort h s p c
      | none => if p.isWaiting then .ok (p.supply word) else takePlain h s p word

def command? (p : Progress) (word : String) : Option (Option Verb) :=
  if p.plain ∨ p.isWaiting then none
  else if word = "help" then some none
  else (Verb.ofName? word).map some

def readOuter (h : Host) (p : Progress) :
    List String → Except Stop (Progress × Option (Verb × List String))
  | [] => .ok (p, none)
  | word :: rest =>
    match command? p word with
    | some none => .error (help rest)
    | some (some v) => .ok (p, some (v, rest))
    | none => do readOuter h (← take h .outer p word) rest

/-- Reads the words after the command. Every place must be filled. -/
def readInner (h : Host) (v : Verb) (words : List String) : Except Stop Given := do
  let p ← words.foldlM (take h (.inner v)) (.start v.places)
  let p ← p.settle h
  match v.places.filter fun slot => !p.given.any (·.1 = slot) with
  | [] => return p.given
  | slots => misuse (.missing slots)

inductive Request
  | move (m : Command.Move)
  | moveModule (m : Command.MoveModule)
  | showImports (name : String)
  deriving DecidableEq, Repr

structure Invocation where
  python : Option String
  level : Log.Level
  project : String
  libraryFolder : Option String
  request : Request
  deriving DecidableEq, Repr

def request (v : Verb) (given : Given) : Request :=
  let value (slot : Slot) : String := (given.lookup slot).getD ""
  match v with
  | .move =>
    let offset := (Natural.read Natural.max64 (value .offset).toList).toOption.getD 0
    .move ⟨value .sourceFile, offset, given.lookup .destination⟩
  | .moveModule => .moveModule ⟨value .module, given.lookup .destination⟩
  | .showImports => .showImports (value .name)

/-- What is given after the command counts before what is given in front of it. -/
def invocation (outer : Given) (v : Verb) (inner : Given) : Invocation :=
  let value? (slot : Slot) : Option String := inner.lookup slot <|> outer.lookup slot
  { python := value? .python
    level := ((value? .logLevel).bind fun word => levels.lookup word).getD .warn
    project := (value? .project).getD "."
    libraryFolder := value? .libraryFolder
    request := request v inner }

def read (h : Host) (words : List String) : Except Stop Invocation := do
  let (p, command) ← readOuter h (.start []) words
  match command with
  | some (v, rest) =>
    let inner ← readInner h v rest
    let p ← p.settle h
    return invocation p.given v inner
  | none =>
    let p ← p.settle h
    if p.given.isEmpty then throw .nothing
    misuse .noCommand

end Relocate.CommandLine
