import Relocate.Failure
import Relocate.Files.FileSystem

namespace Relocate

open Utf8 (Bytes)

inductive Kind
  | file
  | folder
  deriving DecidableEq, Repr

def Kind.text : Kind → String
  | .file => "file"
  | .folder => "folder"

structure Place where
  /-- Names separated by slashes; the project root is the empty path. -/
  path : String
  kind : Kind
  /-- Whether it was there when the path was looked up. -/
  onDisk : Bool
  deriving DecidableEq, Repr

namespace Place

def isFolder (p : Place) : Bool := p.kind = .folder

def text (p : Place) : String := if p.path = "" then "." else p.path

def known (path : String) (kind : Kind) : Place := ⟨path, kind, true⟩

inductive Refusal
  | missing (path : Bytes)
  | outside (path root : Bytes)
  /-- What is left of the path below the root, which is not all text. -/
  | notText (rest : Bytes)
  /-- There is something, and the system refuses to name it without links. -/
  | unnamed (cause : SystemError)
  deriving DecidableEq, Repr

def Refusal.failure : Refusal → Failure
  | .missing path => .invalidArguments ("path does not exist: " ++ Utf8.textLossy path)
  | .outside path root => .invalidArguments
    (Utf8.textLossy path ++ " is outside the project root " ++ Utf8.textLossy root)
  | .notText rest => .invalidArguments ("path is not valid UTF-8: " ++ Utf8.textLossy rest)
  | .unnamed cause => .io cause

/-- What remains of `parts` after `root`. -/
def below? : (root parts : List Path.Part) → Option (List Path.Part)
  | [], parts => some parts
  | _ :: _, [] => none
  | r :: root, p :: parts => if r = p then below? root parts else none

/-- The folder that a location leads to, its names being given backwards: links are resolved in the
longest part from the front that leads to something, and the `missing` names follow. -/
def reachable (fs : FileSystem) (missing : Location) :
    List Bytes → Except SystemError Location
  | [] => .ok missing
  | name :: up =>
    match fs.reaches (name :: up).reverse with
    | some _ =>
      (fs.canonicalized [] (Location.written (name :: up).reverse)).map (· ++ missing)
    | none => reachable fs (name :: missing) up

/-- What a path names: where it is, its kind, and whether it exists. Only a folder may be named that
does not exist. -/
def lookUp (fs : FileSystem) (folder : Location) (path : Bytes) (hint : Kind) :
    Except Refusal (Location × Kind × Bool) :=
  match fs.locate folder (Path.join folder.written path) with
  | .ok l => do
    let named ← (fs.canonicalized folder (Path.join folder.written path)).mapError .unnamed
    return (named, if fs.isFolderAt l then .folder else .file, true)
  | .error _ =>
    match hint with
    | .folder => do
      let l ← (reachable fs [] (Path.lexical folder path).reverse).mapError .unnamed
      return (l, .folder, false)
    | .file => .error (.missing path)

/-- The path of a place, from the names below the root. Each of them has to be text. -/
def spelled (names : List Bytes) : Except Refusal String :=
  match names.mapM Utf8.text? with
  | none => .error (.notText (Text.joinWith Path.slash names))
  | some texts => .ok (Text.joined '/' texts)

/-- The place that a path names, seen from `folder`. -/
def resolve (fs : FileSystem) (folder : Location) (root path : Bytes) (hint : Kind) :
    Except Refusal Place :=
  match lookUp fs folder path hint with
  | .error refusal => .error refusal
  | .ok (l, kind, onDisk) =>
    match below? (Path.parts root) (Path.locationParts l) with
    | none => .error (.outside path root)
    | some rest => (spelled (rest.map Path.Part.bytes)).map fun path => ⟨path, kind, onDisk⟩

end Place

end Relocate
