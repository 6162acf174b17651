import Relocate.Host
import Relocate.Project.Place
import Relocate.Prompt

namespace Relocate

open Utf8 (Bytes)

inductive MoveKind
  /-- A class, function or variable of a module. -/
  | global
  | module
  | method
  deriving DecidableEq, Repr

structure MovePlan where
  handle : String
  name : String
  kind : MoveKind
  /-- Where that which moves is defined. -/
  origin : Place
  deriving DecidableEq, Repr

structure ChangeSet where
  handle : String
  description : String
  changed : List String
  deriving DecidableEq, Repr

def ChangeSet.values (c : ChangeSet) : List (String × String) :=
  [("description", c.description), ("files", Log.listed c.changed)]

structure Session (τ : Type) where
  root : Bytes
  /-- The place that a path names, provided that there is one of that kind. -/
  resolve : String → Kind → Except Failure Place
  /-- Prepares a move of what stands at a character of a file, or of the whole module. -/
  beginMove : Place → Option Nat → Action τ Failure MovePlan
  isSourceFile : Place → Action τ Failure Bool
  changesFor : MovePlan → Place → Action τ Failure ChangeSet
  apply : ChangeSet → Action τ Failure Unit
  /-- The modules that define a name, in the engine's order. -/
  importCandidates : String → Action τ Failure (List String)

/-- What a session makes of a path unless it has its own way: the place in its project. -/
def Session.resolver (h : Host) (root : Bytes) (path : String) (hint : Kind) :
    Except Failure Place :=
  (Place.resolve h.files h.folder root path hint).mapError Place.Refusal.failure

/-- All that a command can reach. -/
structure Surroundings (τ : Type) where
  host : Host
  session : Session τ
  ask : String → Action τ Prompt.Error String
  write : String → Action τ SystemError Unit
  log : Log.Entry → Action τ Failure Unit

namespace Surroundings

variable {τ : Type}

def resolve (s : Surroundings τ) (path : String) (hint : Kind) : Action τ Failure Place :=
  liftM (s.session.resolve path hint)

def logIf (s : Surroundings τ) (holds : Bool) (e : Log.Entry) : Action τ Failure Unit :=
  if holds then s.log e else return

def report (s : Surroundings τ) (pieces : List String) : Action τ Failure Unit :=
  pieces.forM fun piece => (s.write piece).mapError .io

def destination (s : Surroundings τ) (given : Option String) (question : String) :
    Action τ Failure String :=
  match given with
  | some path => return path
  | none => (s.ask question).mapError Prompt.Error.failure

end Surroundings

end Relocate
