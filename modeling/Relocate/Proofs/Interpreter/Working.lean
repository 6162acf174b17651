import Relocate.Proofs.Interpreter.Identity

namespace Relocate

open Relocate.Action Worker

/-- The same machine with other workers: each interpreter does `work` when it is started as one. -/
def Host.working (h : Host) (work : Location → Pipes) : Host :=
  { h with interpreters := h.interpreters.map fun i => (i.1, { i.2 with worker := work i.1 }) }

def Host.Running.working (work : Location → Pipes) (program : Running) : Running :=
  { program with interpreter := { program.interpreter with worker := work program.file } }

namespace Host

theorem follow_lookup {h : Host} {word : Option String} {path : String} {links : Nat}
    {program : Running} (hr : h.follow word path links = .ok program) :
    h.interpreters.lookup program.file = some program.interpreter := by
  induction links generalizing word path with
  | zero =>
    obtain ⟨u, -, hr⟩ := ok_of_bind hr
    cases hr
  | succ links ih =>
    obtain ⟨⟨l, data⟩, -, hr⟩ := ok_of_bind hr
    dsimp only at hr
    split at hr
    · rename_i i header hi
      split at hr
      · cases hr
      · obtain rfl := Except.ok.inj hr
        exact hi
    · cases hr
    · exact ih hr

theorem start_lookup {h : Host} {path : String} {program : Running}
    (hr : h.start path = .ok program) :
    h.interpreters.lookup program.file = some program.interpreter := by
  obtain ⟨file, hs⟩ := exists_startsFrom hr
  cases hs with
  | path _ _ hr => exact follow_lookup hr
  | search _ _ _ _ hr => exact follow_lookup hr

variable (h : Host) (work : Location → Pipes)

theorem lookup_working (l : Location) : (h.working work).interpreters.lookup l =
    (h.interpreters.lookup l).map fun i => { i with worker := work l } := by
  obtain ⟨files, folder, environment, interpreters⟩ := h
  unfold working
  dsimp only
  induction interpreters with
  | nil => rfl
  | cons i rest ih =>
    obtain ⟨file, i⟩ := i
    rw [List.map_cons, List.lookup_cons, List.lookup_cons, ih]
    by_cases hl : l = file
    · subst hl
      simp
    · simp [beq_false_of_ne hl]

theorem follow_working (word : Option String) (path : String) (links : Nat) :
    (h.working work).follow word path links =
      (h.follow word path links).map (Running.working work) := by
  have hx (path : String) : (h.working work).executable path = h.executable path := rfl
  induction links generalizing word path with
  | zero =>
    rw [follow, follow, hx]
    cases h.executable path <;> rfl
  | succ links ih =>
    rw [follow, follow, hx]
    cases h.executable path with
    | error e => rfl
    | ok found =>
      obtain ⟨l, data⟩ := found
      simp only [bind, Except.bind, lookup_working]
      cases hi : h.interpreters.lookup l with
      | none =>
        cases Script.header? data with
        | none => rfl
        | some s => exact ih _ _
      | some i =>
        simp only [Option.map_some]
        split
        · rfl
        · rfl

theorem startIn_working (name : String) (denied : Bool) (last : SystemError) (folders : List String) :
    (h.working work).startIn name denied last folders =
      (h.startIn name denied last folders).map (Running.working work) := by
  induction folders generalizing denied last with
  | nil => rfl
  | cons folder rest ih =>
    have hs (path : String) : (h.working work).startAt path =
        (h.startAt path).map (Running.working work) := follow_working h work none path maxLinks
    rw [startIn, startIn, hs]
    cases h.startAt (if folder = "" then name else folder ++ "/" ++ name) with
    | ok program => rfl
    | error e => cases e <;> first | rfl | exact ih _ _

theorem start_working (program : String) : (h.working work).start program =
    (h.start program).map (Running.working work) := by
  unfold start
  split
  · rfl
  · split
    · rfl
    · split
      · exact follow_working h work none program maxLinks
      · exact startIn_working h work program false .noSuchEntry h.searchFolders

theorem launching_working (path : String) (task : Task) :
    (h.working work).launching path task = h.launching path task := by
  rw [launching, launching, start_working]
  cases h.start path <;> rfl

end Host

namespace Interpreter

variable {σ : Type} (h : Host) (work : Location → Pipes)

theorem output_working (i : Interpreter) (p : Pipes) (task : Option Task) :
    output { i with worker := p } task = i.output task := by
  cases task with
  | none => rfl
  | some task => cases task <;> rfl

/-- What is read from the output of a program has nothing to do with its work. -/
theorem reading_working {α : Type} (path : String) (task : Task) {f : Interpreter → Except Error α}
    {g : Output → Except Error α}
    (hf : ∀ (i : Interpreter) (word : Option Task), f (i.doing word) = g (i.output word)) :
    ((ask (h.working work) path task).reading f : Action (Run σ) Error α) =
      (ask h path task).reading f := by
  funext r
  have he : exec ((ask (h.working work) path task).reading f) r =
      exec ((ask h path task).reading f) r := by
    rw [exec_reading_ask, exec_reading_ask, Host.launching_working, Host.start_working]
    cases h.start path with
    | error e => rfl
    | ok program =>
      simp only [Except.map, hf, Host.Running.working, output_working]
      rfl
  exact he

theorem validate_working (origin : Origin) (path : String) :
    (validate (h.working work) origin path : Action (Run σ) Attempt Found) =
      validate h origin path := by
  have hv : (askVersion (h.working work) path : Action (Run σ) Error Version) = askVersion h path :=
    reading_working h work path .version fun _ _ => rfl
  have hl : (askLibrary (h.working work) path : Action (Run σ) Error (Option Library)) =
      askLibrary h path :=
    reading_working (g := fun o => .ok (readLibrary o)) h work path .library fun _ _ => rfl
  have hx : (h.working work).exists? path = h.exists? path := rfl
  rw [validate_eq, validate_eq, hv, hx]
  unfold grant
  rw [hl]

theorem search_working (done : List Attempt) (stops : List Stop) :
    (search (h.working work) done stops : Action (Run σ) Error Found) = search h done stops := by
  induction stops generalizing done with
  | nil => rfl
  | cons stop rest ih =>
    cases stop with
    | note a => exact ih _
    | candidate origin path =>
      rw [search, search, validate_working]
      refine bind_congr fun result => ?_
      cases result with
      | ok found => rfl
      | error a => exact ih _

theorem stops_working : stops (h.working work) = stops h := by
  have hw : (h.working work).which? = h.which? := rfl
  have hx : (h.working work).exists? = h.exists? := rfl
  have he : (h.working work).environment? = h.environment? := rfl
  unfold stops environmentStops searchStops inEnvironment
  rw [hw, hx, he]

theorem discover_working (c : Choice) :
    (discover (h.working work) c : Action (Run σ) Error Found) = discover h c := by
  have hc : chosen? (explicit (h.working work) c) = chosen? (explicit h c) := rfl
  unfold discover
  rw [hc, stops_working, search_working]
  cases chosen? (explicit h c) with
  | none => rfl
  | some choice =>
    dsimp only
    rw [validate_working]

end Interpreter

namespace Worker.Link

theorem workerOf_working (work : Location → Pipes) (program : Host.Running) :
    workerOf (program.working work) =
      if program.task? .worker = some .worker then work program.file else workerOf program := by
  have ht : (program.working work).task? .worker = program.task? .worker := rfl
  unfold workerOf
  rw [ht]
  cases program.task? .worker with
  | none => rfl
  | some task => cases task <;> rfl

theorem start_working (h : Host) (work : Location → Pipes) {path : String}
    (hw : ∀ program, h.start path = .ok program →
      workerOf (program.working work) = workerOf program) :
    start (h.working work) path = start h path := by
  have hl : (h.working work).launch path .worker =
      (h.launch path .worker : Action (Run Link) SystemError Interpreter) := by
    unfold Host.launch
    rw [Host.start_working]
    cases hs : h.start path with
    | error e => rfl
    | ok program =>
      have hp : (program.working work).interpreter.pipes (program.task? .worker) =
        program.interpreter.pipes (program.task? .worker) := hw program hs
      have hd : (program.working work).interpreter.doing (program.task? .worker) =
          program.interpreter.doing (program.task? .worker) := by
        unfold Interpreter.doing
        rw [hp, Host.Running.working, Interpreter.output_working]
      exact bind_congr fun _ => congrArg Pure.pure hd
  have hx : (h.working work).exists? = h.exists? := rfl
  have hk : (h.working work).script = h.script := rfl
  unfold start
  rw [hl, hx, hk]

end Worker.Link

end Relocate
