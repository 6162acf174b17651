import Relocate.Command.Move
import Relocate.Command.MoveModule
import Relocate.Proofs.Execution

namespace Relocate.Command

open Relocate.Action
open Source (charIndex isMisdeclared)
open Utf8 (Bytes)

/-- What sets one moving command apart from another. -/
structure Rules where
  remarks : List Log.Entry
  /-- What is to be moved: what stands at a character of a file, or the whole module. -/
  source : Except Failure (Place × Option Nat)
  permit : MovePlan → Except Failure Unit
  announcement : MovePlan → List String
  given : Option String
  question : String
  /-- The place that a path names, if it can be a destination. -/
  aim : String → Except Failure Place
  /-- What is said of a place that the engine does not take for a source file; nothing if it is not
  asked. -/
  doubt : Option Failure
  notes : Place → List Log.Entry
  summary : ChangeSet → Log.Entry
  final : MovePlan → Place → List String

namespace Rules

variable {τ : Type}

def confirm (k : Rules) (s : Surroundings τ) (place : Place) : Action τ Failure Unit :=
  match k.doubt with
  | none => return
  | some e => do Action.ensure (← s.session.isSourceFile place) e

def target (k : Rules) (s : Surroundings τ) : Action τ Failure Place := do
  let path ← s.destination k.given k.question
  let place ← k.aim path
  k.confirm s place
  return place

def run (k : Rules) (s : Surroundings τ) : Action τ Failure Unit := do
  k.remarks.forM s.log
  let source ← k.source
  let plan ← s.session.beginMove source.1 source.2
  k.permit plan
  s.report (k.announcement plan)
  let place ← k.target s
  (k.notes place).forM s.log
  let changes ← s.session.changesFor plan place
  s.log (k.summary changes)
  s.session.apply changes
  s.report (k.final plan place)

end Rules

variable {τ : Type}

theorem report_append (s : Surroundings τ) (a b : List String) :
    s.report (a ++ b) = s.report a >>= fun _ => s.report b := by
  simp only [Surroundings.report, List.forM_eq_forM, List.forM_append]

theorem forM_log_if (s : Surroundings τ) (p : Prop) [Decidable p] (e : Log.Entry) :
    (if p then [e] else []).forM s.log = s.logIf p e := by
  unfold Surroundings.logIf
  by_cases h : p <;> simp [h]

namespace Move

def located (s : Surroundings τ) (m : Move) : Except Failure (Place × Bytes) :=
  match s.session.resolve m.file .file with
  | .error e => .error e
  | .ok place =>
    if place.isFolder then
      .error (.invalidArguments (m.file ++ " is a directory, expected a file"))
    else
      match s.host.files.read s.host.folder m.file with
      | .error e => .error (.io e)
      | .ok data => .ok (place, data)

def spot (s : Surroundings τ) (m : Move) : Except Failure (Place × Option Nat) :=
  match m.located s with
  | .error e => .error e
  | .ok (place, data) =>
    match charIndex data m.offset with
    | .error e => .error e.failure
    | .ok n => .ok (place, some n)

def remarks (s : Surroundings τ) (m : Move) : List Log.Entry :=
  match m.located s with
  | .error _ => []
  | .ok (_, data) => if m.offset ≤ data.length ∧ isMisdeclared data then [countedAsBytes] else []

def aim (s : Surroundings τ) (path : String) : Except Failure Place :=
  if s.host.isFile path then
    match s.session.resolve path .file with
    | .error e => .error e
    | .ok place => if place.isFolder then .error notSource else .ok place
  else .error notSource

def rules (s : Surroundings τ) (m : Move) : Rules where
  remarks := m.remarks s
  source := m.spot s
  permit := permit
  announcement plan := ["Moving definition of `", plan.name, "`\n", "Definition of `", plan.name,
    "` is currently at: ", plan.origin.text, "\n"]
  given := m.destination
  question := question
  aim := aim s
  doubt := some notSource
  notes _ := []
  summary changes := ⟨.move, .debug, "computed move", changes.values⟩
  final plan place := ["Definition of `", plan.name, "` moved to: ", place.text, "\n"]

theorem plan_located (s : Surroundings τ) (m : Move) :
    m.plan s = liftM (m.located s) >>= fun found => index s found.2 m.offset >>= fun n =>
      s.session.beginMove found.1 (some n) := by
  unfold plan located source Surroundings.resolve
  cases s.session.resolve m.file .file with
  | error e => rfl
  | ok place =>
    cases hf : place.isFolder with
    | true => simp [hf]
    | false => cases s.host.files.read s.host.folder m.file <;> simp [hf]

theorem plan_eq (s : Surroundings τ) (m : Move) :
    m.plan s = ((m.rules s).remarks.forM s.log >>= fun _ =>
      liftM (m.rules s).source >>= fun source => s.session.beginMove source.1 source.2) := by
  rw [plan_located]
  unfold rules spot remarks
  dsimp only
  cases m.located s with
  | error e => rfl
  | ok found =>
    obtain ⟨place, data⟩ := found
    dsimp only
    rw [forM_log_if, liftM_ok, pure_bind, index, bind_assoc]
    cases charIndex data m.offset <;> rfl

theorem target_eq (s : Surroundings τ) (m : Move) : m.target s = (m.rules s).target s := by
  unfold target Rules.target Rules.confirm rules aim Surroundings.resolve
  refine bind_congr fun path => ?_
  dsimp only
  cases s.host.isFile path with
  | false => rfl
  | true =>
    cases s.session.resolve path .file with
    | error e => rfl
    | ok place => cases hf : place.isFolder <;> simp [hf]

theorem run_eq (s : Surroundings τ) (m : Move) : m.run s = (m.rules s).run s := by
  unfold run Rules.run
  rw [target_eq, plan_eq, bind_assoc]
  refine bind_congr fun _ => ?_
  rw [bind_assoc]
  refine bind_congr fun source => bind_congr fun plan => bind_congr fun _ => ?_
  rw [← bind_assoc, ← report_append]
  exact bind_congr fun _ => bind_congr fun place => (pure_bind _ _).symm

end Move

namespace MoveModule

def aim (s : Surroundings τ) (path : String) : Except Failure Place :=
  match s.session.resolve path .folder with
  | .error e => .error e
  | .ok place => if place.isFolder then .ok place else .error notFolder

def rules (s : Surroundings τ) (m : MoveModule) : Rules where
  remarks := []
  source :=
    match s.session.resolve m.module .file with
    | .error e => .error e
    | .ok place => .ok (place, none)
  permit _ := .ok ()
  announcement plan := ["Moving module `", plan.name, "`\n", "Module `", plan.name,
    "` is currently at: ", plan.origin.text, "\n"]
  given := m.destination
  question := question
  aim := aim s
  doubt := none
  notes place := if !place.onDisk then [missing place] else []
  summary changes := ⟨.moveModule, .debug, "computed module move", changes.values⟩
  final plan place := ["Module `", plan.name, "` moved to: ", place.text, "\n"]

theorem target_eq (s : Surroundings τ) (m : MoveModule) :
    m.target s = (m.rules s).target s := by
  unfold target Rules.target Rules.confirm rules aim Surroundings.resolve
  refine bind_congr fun path => ?_
  dsimp only
  cases s.session.resolve path .folder with
  | error e => rfl
  | ok place => cases hf : place.isFolder <;> simp [hf]

theorem run_eq (s : Surroundings τ) (m : MoveModule) : m.run s = (m.rules s).run s := by
  unfold run Rules.run
  rw [target_eq]
  unfold rules Surroundings.resolve
  dsimp only
  cases s.session.resolve m.module .file with
  | error e => rfl
  | ok place =>
    simp only [liftM_ok, pure_bind, forM_log_if, Bool.decide_eq_true]
    rw [List.forM_eq_forM, List.forM_nil, pure_bind]
    refine bind_congr fun plan => ?_
    rw [← bind_assoc, ← report_append]
    rfl

end MoveModule

end Relocate.Command
