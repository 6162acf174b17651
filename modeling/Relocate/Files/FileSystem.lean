import Relocate.Path
import Relocate.SystemError
import Relocate.Text.Utf8

namespace Relocate

open Utf8 (Bytes)

inductive Entry
  | file (data : Bytes) (executable : Bool)
  | folder
  | link (target : Bytes)
  deriving DecidableEq, Repr

/-- The entries below the root, which is always a folder. Of two entries at one location the first
counts. -/
structure FileSystem where
  entries : List (Location × Entry)
  deriving Repr

namespace FileSystem

def entry? (fs : FileSystem) (l : Location) : Option Entry :=
  if l = [] then some .folder else fs.entries.lookup l

def maxLinks : Nat := 40

def maxName : Nat := 255

def maxPath : Nat := 4095

/-- Walks from `here`. Every step must start at a folder; `links` more links may be followed. -/
def walk (fs : FileSystem) (links : Nat) (here : Location) :
    List Path.Step → Except SystemError Location
  | [] => .ok here
  | step :: rest =>
    if fs.entry? here ≠ some .folder then .error .notDirectory
    else
      match step with
      | .stay => fs.walk links here rest
      | .up => fs.walk links here.dropLast rest
      | .down name =>
        if maxName < name.length then .error .nameTooLong
        else
          match fs.entry? (here ++ [name]) with
          | none => .error .noSuchEntry
          | some (.link target) =>
            match links with
            | 0 => .error .tooManyLinks
            | more + 1 => fs.walk more (Path.start here target) (Path.steps target ++ rest)
          | some _ => fs.walk links (here ++ [name]) rest
termination_by steps => (links, steps.length)

@[irreducible] def locate (fs : FileSystem) (folder : Location) (path : Bytes) :
    Except SystemError Location :=
  if path = [] then .error .noSuchEntry
  else if path.contains 0 then .error .nulInName
  else if maxPath < path.length then .error .nameTooLong
  else fs.walk maxLinks (Path.start folder path) (Path.steps path)

/-- The location that a path names, provided that it leads there when it is written out as a path. -/
def canonicalized (fs : FileSystem) (folder : Location) (path : Bytes) :
    Except SystemError Location := do
  let l ← fs.locate folder path
  fs.locate [] l.written

def reaches (fs : FileSystem) (l : Location) : Option Location := (fs.locate [] l.written).toOption

def isFolderAt (fs : FileSystem) (l : Location) : Bool := fs.entry? l = some .folder

def exists? (fs : FileSystem) (folder : Location) (path : Bytes) : Bool :=
  (fs.locate folder path).toOption.isSome

def isFolder (fs : FileSystem) (folder : Location) (path : Bytes) : Bool :=
  match fs.locate folder path with
  | .ok l => fs.isFolderAt l
  | .error _ => false

def isFile (fs : FileSystem) (folder : Location) (path : Bytes) : Bool :=
  match fs.locate folder path with
  | .ok l => !fs.isFolderAt l
  | .error _ => false

def read (fs : FileSystem) (folder : Location) (path : Bytes) : Except SystemError Bytes := do
  match fs.entry? (← fs.locate folder path) with
  | some (.file data _) => return data
  | some .folder => throw .isDirectory
  | _ => throw .noSuchEntry

def readText (fs : FileSystem) (folder : Location) (path : Bytes) : Except SystemError String := do
  match Utf8.text? (← fs.read folder path) with
  | some text => return text
  | none => throw .notText

end FileSystem

end Relocate
