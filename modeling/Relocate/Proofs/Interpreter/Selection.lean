import Mathlib.Data.List.Forall2
import Relocate.Interpreter.Discovery
import Relocate.Proofs.Journal
import Relocate.Settings

namespace Relocate

open Relocate.Action

def Event.launchesIn (programs : List String) : Event → Bool
  | .launched program .. => programs.contains program
  | _ => true

theorem Event.launchesIn_mono {programs more : List String} (h : programs ⊆ more) {e : Event}
    (he : e.launchesIn programs = true) : e.launchesIn more = true := by
  cases e with
  | launched program task result =>
    have hp : program ∈ programs := List.contains_iff_mem.mp he
    exact List.contains_iff_mem.mpr (h hp)
  | _ => rfl

theorem Run.Extends.mono {σ : Type} {kind kind' : Event → Bool} {r r' : Run σ}
    (h : ∀ e, kind e = true → kind' e = true) (hr : r.Extends kind r') : r.Extends kind' r' := by
  obtain ⟨es, hj, he⟩ := hr.journal
  exact ⟨hr.engine, es, hj, fun e hm => h e (he e hm)⟩

namespace Interpreter

variable {σ : Type}

def output? (h : Host) (path : String) (task : Task) : Option Output :=
  match h.start path with
  | .ok r => some (r.interpreter.output (r.task? task))
  | .error _ => none

/-- An interpreter that can run the engine. It exists, says that it is of this version, which is
3.8.0 or a later one, and has the library. -/
structure Usable (h : Host) (path : String) (v : Version) : Prop where
  present : h.exists? path = true
  version : ∃ o, output? h path .version = some o ∧ o.success = true ∧
    Version.ofText? (versionText o) = some v
  recent : 3 < v.major.toNat ∨ v.major.toNat = 3 ∧ 8 ≤ v.minor.toNat
  library : ∃ o, output? h path .library = some o ∧ o.success = true

theorem compare_toNat (a b : UInt32) : compare a b = compare a.toNat b.toNat := by
  have hlt : a < b ↔ a.toNat < b.toNat := UInt32.lt_iff_toNat_lt
  have heq : a = b ↔ a.toNat = b.toNat := UInt32.toNat_inj.symm
  exact if_congr hlt rfl (if_congr heq rfl rfl)

theorem meetsMinimum_iff (v : Version) : v.meetsMinimum = true ↔
    3 < v.major.toNat ∨ v.major.toNat = 3 ∧ 8 ≤ v.minor.toNat := by
  rw [Version.meetsMinimum, Version.order, Version.minimum, bne_iff_ne, ne_eq,
    Ordering.then_eq_lt, Ordering.then_eq_lt, Ordering.then_eq_eq]
  simp only [compare_toNat, Nat.compare_eq_lt, Nat.compare_eq_eq, UInt32.reduceToNat]
  omega

theorem ask_extends {kind : Event → Bool} (h : Host) (path : String) (task : Task)
    (hk : ∀ result, kind (.launched path task result) = true) :
    Action.Extends kind (ask h path task : Action (Run σ) Error Interpreter) := by
  refine .mapError ?_ _
  rw [Host.launch]
  cases h.start path with
  | ok p => exact .bind (.record (hk _)) fun _ => .pure _
  | error e => exact .bind (.record (hk _)) fun _ => .throw _

theorem askVersion_eq (h : Host) (path : String) :
    (askVersion h path : Action (Run σ) Error Version) =
      (ask h path .version).reading fun i => readVersion path i.version := rfl

theorem askLibrary_eq (h : Host) (path : String) :
    (askLibrary h path : Action (Run σ) Error (Option Library)) =
      (ask h path .library).reading fun i => .ok (readLibrary i.library) := rfl

theorem exec_reading_ask {α : Type} (h : Host) (path : String) (task : Task)
    (f : Interpreter → Except Error α) (r : Run σ) :
    exec ((ask h path task).reading f) r =
      (match h.start path with
        | .ok program => f (program.interpreter.doing (program.task? task))
        | .error e => .error (.notExecuted path e.message),
      { r with journal := r.journal ++ [h.launching path task] }) := by
  rw [exec_reading, ask, exec_mapError, Host.exec_launch]
  cases h.start path <;> rfl

theorem reading_ask {α : Type} (h : Host) (path : String) (task : Task)
    (f : Interpreter → Except Error α) (g : Output → Except Error α)
    (hf : ∀ (i : Interpreter) (word : Option Task), f (i.doing word) = g (i.output word))
    (r : Run σ) :
    (∃ o, output? h path task = some o ∧ (exec ((ask h path task).reading f) r).1 = g o) ∨
      output? h path task = none ∧ ∃ e, (exec ((ask h path task).reading f) r).1 = .error e := by
  rw [exec_reading_ask, output?]
  cases h.start path with
  | ok p => exact .inl ⟨_, rfl, hf p.interpreter _⟩
  | error e => exact .inr ⟨rfl, _, rfl⟩

theorem readVersion_eq_ok {path : String} {o : Output} {v : Version} :
    readVersion path o = .ok v ↔ o.success = true ∧ Version.ofText? (versionText o) = some v := by
  unfold readVersion Version.read
  cases o.success with
  | false => simp
  | true => cases Version.ofText? (versionText o) <;> simp

theorem askVersion_ok {h : Host} {path : String} {v : Version} {r : Run σ} :
    (exec (askVersion h path) r).1 = .ok v ↔ ∃ o, output? h path .version = some o ∧
      o.success = true ∧ Version.ofText? (versionText o) = some v := by
  have ha := reading_ask h path .version (fun i => readVersion path i.version) (readVersion path)
    (fun _ _ => rfl) r
  rw [askVersion_eq]
  obtain ⟨o, ho, hr⟩ | ⟨ho, e, hr⟩ := ha
  · rw [hr, readVersion_eq_ok, ho]
    simp
  · rw [hr, ho]
    simp

theorem readLibrary_isSome (o : Output) : (readLibrary o).isSome = o.success := by
  unfold readLibrary
  cases o.success <;> rfl

theorem askLibrary_ok {h : Host} {path : String} {r : Run σ} :
    (∃ library, (exec (askLibrary h path) r).1 = .ok (some library)) ↔
      ∃ o, output? h path .library = some o ∧ o.success = true := by
  have ha := reading_ask h path .library (fun i => .ok (readLibrary i.library))
    (fun o => .ok (readLibrary o)) (fun _ _ => rfl) r
  rw [askLibrary_eq]
  obtain ⟨o, ho, hr⟩ | ⟨ho, e, hr⟩ := ha
  · have hl := Option.isSome_iff_exists (x := readLibrary o)
    rw [readLibrary_isSome] at hl
    have he : (∃ library, (Except.ok (readLibrary o) : Except Error _) = .ok (some library)) ↔
        ∃ library, readLibrary o = some library := by
      simp only [Except.ok.injEq]
    rw [hr, ho, he, ← hl]
    simp
  · rw [hr, ho]
    simp

def reject (origin : Origin) (path : String) (version : Option Version) (reason : String) : Attempt :=
  .rejected origin.text path (version.map Version.text) reason

def grant (h : Host) (origin : Origin) (path : String) (version : Version) :
    Action (Run σ) Attempt Found := do
  match ← (askLibrary h path).mapError fun e => reject origin path (some version) e.message with
  | none => throw (reject origin path (some version) "rope not installed")
  | some library =>
    Run.log ⟨.discovery, .info, "resolved Python interpreter",
      [("python", path), ("version", version.text), ("source", origin.text)]⟩
    return ⟨path, version, library, origin⟩

theorem validate_eq (h : Host) (origin : Origin) (path : String) :
    (validate h origin path : Action (Run σ) Attempt Found) =
      ensure (h.exists? path) (reject origin path none "path does not exist") >>= fun _ =>
        ((askVersion h path).mapError fun e => reject origin path none e.message) >>= fun v =>
          ensure v.meetsMinimum (reject origin path (some v) tooOld) >>= fun _ =>
            grant h origin path v := by
  unfold validate
  cases h.exists? path with
  | false => rfl
  | true =>
    refine bind_congr fun v => ?_
    cases v.meetsMinimum <;> rfl

section

variable {kind : Event → Bool} (hl : ∀ e, kind (.logged e) = true)

include hl

/-- Trying one interpreter starts it, for one thing or another, and starts nothing else. -/
theorem validate_extends (h : Host) (origin : Origin) (path : String)
    (hk : ∀ task result, task ≠ .worker → kind (.launched path task result) = true) :
    Action.Extends kind (validate h origin path : Action (Run σ) Attempt Found) := by
  have hv : Action.Extends kind (askVersion h path : Action (Run σ) Error Version) :=
    .bind (ask_extends h path .version fun _ => hk _ _ (by simp)) fun _ => .liftM _
  have ha : Action.Extends kind (askLibrary h path : Action (Run σ) Error (Option Library)) :=
    .bind (ask_extends h path .library fun _ => hk _ _ (by simp)) fun _ => .pure _
  rw [validate_eq]
  refine .bind (.ite (.pure _) (.throw _)) fun _ => .bind (.mapError hv _) fun v => ?_
  refine .bind (.ite (.pure _) (.throw _)) fun _ => .bind (.mapError ha _) fun library => ?_
  cases library with
  | none => exact .throw _
  | some library => exact .bind (.record (hl _)) fun _ => .pure _

variable (hk : ∀ path task result, task ≠ .worker → kind (.launched path task result) = true)

include hk

theorem search_extends (h : Host) (done : List Attempt) (stops : List Stop) :
    Action.Extends kind (search h done stops : Action (Run σ) Error Found) := by
  induction stops generalizing done with
  | nil => exact .throw _
  | cons stop stops ih =>
    cases stop with
    | note a => exact ih _
    | candidate origin path =>
      refine .bind (.attempt (validate_extends hl h origin path (hk path))) fun result => ?_
      cases result with
      | ok found => exact .pure _
      | error a => exact ih _

theorem discover_extends (h : Host) (c : Choice) :
    Action.Extends kind (discover h c : Action (Run σ) Error Found) := by
  unfold discover
  cases chosen? (explicit h c) with
  | none => exact search_extends hl hk h [] _
  | some s => exact .mapError (validate_extends hl h s.1 s.2 (hk s.2)) _

end

theorem validate_launches (h : Host) (origin : Origin) (path : String) :
    Action.Extends (Event.launchesIn [path])
      (validate h origin path : Action (Run σ) Attempt Found) :=
  validate_extends (fun _ => rfl) h origin path fun task result _ => by simp [Event.launchesIn]

theorem grant_cases (h : Host) (origin : Origin) (path : String) (version : Version) (r : Run σ) :
    ((∃ o, output? h path .library = some o ∧ o.success = true) ∧
        ∃ library, (exec (grant h origin path version) r).1 = .ok ⟨path, version, library, origin⟩) ∨
      (¬ ∃ o, output? h path .library = some o ∧ o.success = true) ∧
        ∃ a, (exec (grant h origin path version) r).1 = .error a := by
  have hg := exec_mapError (fun e => reject origin path (some version) e.message) (askLibrary h path) r
  rw [← askLibrary_ok (r := r), grant]
  rcases hl : exec (askLibrary h path) r with ⟨res, r'⟩
  rw [hl] at hg
  cases res with
  | error e =>
    rw [exec_bind_of_error hg]
    exact .inr ⟨by simp, _, rfl⟩
  | ok library =>
    rw [exec_bind_of_ok hg]
    cases library with
    | none => exact .inr ⟨by simp, _, rfl⟩
    | some library => exact .inl ⟨⟨library, rfl⟩, library, rfl⟩

structure Selected (h : Host) (origin : Origin) (path : String) (found : Found) : Prop where
  path_eq : found.path = path
  origin_eq : found.origin = origin
  usable : Usable h path found.version

theorem validate_selects (h : Host) (origin : Origin) (path : String) (r : Run σ) :
    (∃ found, (exec (validate h origin path) r).1 = .ok found ∧ Selected h origin path found) ∨
      (∀ v, ¬ Usable h path v) ∧ ∃ a, (exec (validate h origin path) r).1 = .error a := by
  rw [validate_eq]
  cases hx : h.exists? path with
  | false =>
    refine .inr ⟨fun v hu => ?_, _, rfl⟩
    rw [hu.present] at hx
    cases hx
  | true =>
    rw [ensure_true, pure_bind]
    have hv := exec_mapError (fun e => reject origin path none e.message) (askVersion h path) r
    have hok := fun v => @askVersion_ok σ h path v r
    rcases ha : exec (askVersion h path) r with ⟨res, r'⟩
    rw [ha] at hv hok
    cases res with
    | error e =>
      rw [exec_bind_of_error hv]
      exact .inr ⟨fun v hu => by simpa using (hok v).mpr hu.version, _, rfl⟩
    | ok v =>
      have hsame (w : Version) (hu : Usable h path w) : w = v :=
        (Except.ok.inj ((hok w).mpr hu.version)).symm
      rw [exec_bind_of_ok hv]
      cases hm : v.meetsMinimum with
      | false =>
        refine .inr ⟨fun w hu => ?_, _, rfl⟩
        obtain rfl := hsame w hu
        rw [(meetsMinimum_iff w).mpr hu.recent] at hm
        cases hm
      | true =>
        rw [ensure_true, pure_bind]
        obtain ⟨hl, library, hg⟩ | ⟨hl, a, hg⟩ := grant_cases h origin path v r'
        · have hu : Usable h path v := ⟨hx, (hok v).mp rfl, (meetsMinimum_iff v).mp hm, hl⟩
          exact .inl ⟨_, hg, rfl, rfl, hu⟩
        · exact .inr ⟨fun w hu => hl hu.library, a, hg⟩

/-- The explicit choice: what the command line says, or else the environment, or else the settings,
where a relative path begins at the project root. -/
inductive Explicit (h : Host) (flag : Option String) (s : Settings) (root : String) :
    Origin → String → Prop
  | flag {path : String} (hf : flag = some path) : Explicit h flag s root .flag path
  | environment {path : String} (hf : flag = none)
    (he : h.environment? "ROPIFY_PYTHON" = some path) : Explicit h flag s root .environment path
  | settings {path : String} (hf : flag = none) (he : h.environment? "ROPIFY_PYTHON" = none)
    (hs : s.interpreter = some path) :
    Explicit h flag s root .settings
      (if path.toList.head? = some '/' then path else Path.joinText root path)

def offered (h : Host) (name : String) : List String :=
  match h.environment? name with
  | none => []
  | some folder =>
    [Path.joinText (Path.joinText folder "bin") "python3",
      Path.joinText (Path.joinText folder "bin") "python"].filter h.exists?

def candidates (h : Host) : List (Origin × String) :=
  (offered h "VIRTUAL_ENV").map (.virtualEnvironment, ·) ++
    (offered h "CONDA_PREFIX").map (.condaEnvironment, ·) ++
      (["python3", "python"].filterMap h.which?).map (.searchPath, ·)

/-- An explicit choice stands. It is taken if it can be used, or else named in the error, and no
other program is started. -/
inductive Stands (h : Host) (origin : Origin) (path : String) (r : Run σ) :
    Except Error Found × Run σ → Prop
  | found {found : Found} {r' : Run σ} (hs : Selected h origin path found)
    (hr : r.Extends (Event.launchesIn [path]) r') : Stands h origin path r (.ok found, r')
  | unusable {reason : String} {r' : Run σ} (hu : ∀ v, ¬ Usable h path v)
    (hr : r.Extends (Event.launchesIn [path]) r') :
    Stands h origin path r (.error (.unusable path origin.text reason), r')

/-- The first of these candidates that can be used is taken, and no later one is started. If there
is none, that is the error. -/
inductive Settles (h : Host) (cs : List (Origin × String)) (r : Run σ) :
    Except Error Found × Run σ → Prop
  | found {front back : List (Origin × String)} {origin : Origin} {path : String} {found : Found}
    {r' : Run σ} (hc : cs = front ++ (origin, path) :: back)
    (hf : ∀ c ∈ front, ∀ v, ¬ Usable h c.2 v) (hs : Selected h origin path found)
    (hr : r.Extends (Event.launchesIn (front.map Prod.snd ++ [path])) r') :
    Settles h cs r (.ok found, r')
  | none {attempts : List Attempt} {r' : Run σ} (hn : ∀ c ∈ cs, ∀ v, ¬ Usable h c.2 v)
    (hr : r.Extends (Event.launchesIn (cs.map Prod.snd)) r') :
    Settles h cs r (.error (.noneUsable attempts), r')

def Stop.candidate? : Stop → Option (Origin × String)
  | .candidate origin path => some (origin, path)
  | .note _ => none

theorem candidate?_map (origin : Origin) (paths : List String) :
    (paths.map (Stop.candidate origin)).filterMap Stop.candidate? = paths.map (origin, ·) := by
  induction paths with
  | nil => rfl
  | cons path paths ih => exact congrArg (List.cons (origin, path)) ih

theorem environmentStops_candidates (h : Host) (origin : Origin) (name : String) :
    (environmentStops h origin name).filterMap Stop.candidate? = (offered h name).map (origin, ·) := by
  unfold environmentStops offered
  cases h.environment? name with
  | none => rfl
  | some folder =>
    have ho : inEnvironment h folder = [Path.joinText (Path.joinText folder "bin") "python3",
      Path.joinText (Path.joinText folder "bin") "python"].filter h.exists? := rfl
    dsimp only
    rw [← ho]
    cases inEnvironment h folder with
    | nil => rfl
    | cons path paths => exact candidate?_map origin (path :: paths)

theorem searchStops_candidates (h : Host) : (searchStops h).filterMap Stop.candidate? =
    (["python3", "python"].filterMap h.which?).map (.searchPath, ·) := by
  have hn : names.filterMap h.which? = ["python3", "python"].filterMap h.which? := rfl
  rw [searchStops, ← hn]
  cases names.filterMap h.which? with
  | nil => rfl
  | cons path paths => exact candidate?_map .searchPath (path :: paths)

theorem stops_candidates (h : Host) : (stops h).filterMap Stop.candidate? = candidates h := by
  rw [stops, List.filterMap_append, List.filterMap_append, List.filterMap_append,
    environmentStops_candidates, environmentStops_candidates, searchStops_candidates]
  rfl

/-- Candidates are tried up to the first that can be used. If there is none they are all tried, and
the error tells of them in a certain way. `Does` is what is done to try candidates. -/
inductive Searched (h : Host) (cs : List (Origin × String))
    (Does : List String → Run σ → Run σ → Prop) (Told : List Attempt → Prop) (r : Run σ) :
    Except Error Found × Run σ → Prop
  | found {front back : List (Origin × String)} {origin : Origin} {path : String} {found : Found}
    {r' : Run σ} (hc : cs = front ++ (origin, path) :: back)
    (hf : ∀ c ∈ front, ∀ v, ¬ Usable h c.2 v) (hs : Selected h origin path found)
    (hd : Does (front.map Prod.snd ++ [path]) r r') : Searched h cs Does Told r (.ok found, r')
  | none {attempts : List Attempt} {r' : Run σ} (hn : ∀ c ∈ cs, ∀ v, ¬ Usable h c.2 v)
    (ht : Told attempts) (hd : Does (cs.map Prod.snd) r r') :
    Searched h cs Does Told r (.error (.noneUsable attempts), r')

theorem Searched.imp {h : Host} {cs : List (Origin × String)}
    {Does : List String → Run σ → Run σ → Prop} {Told Told' : List Attempt → Prop} {r : Run σ}
    {out : Except Error Found × Run σ} (ht : ∀ attempts, Told attempts → Told' attempts)
    (hs : Searched h cs Does Told r out) : Searched h cs Does Told' r out := by
  cases hs with
  | found hc hf hs hd => exact .found hc hf hs hd
  | none hn htold hd => exact .none hn (ht _ htold) hd

inductive Passed (Turned : Origin × String → Attempt → Prop) : Stop → Attempt → Prop
  | note (a : Attempt) : Passed Turned (.note a) a
  | candidate {origin : Origin} {path : String} {a : Attempt} (ht : Turned (origin, path) a) :
    Passed Turned (.candidate origin path) a

/-- These are steps that were told before, the latest first, and then one for each of the stops. -/
def ToldOf (Turned : Origin × String → Attempt → Prop) (done : List Attempt) (stops : List Stop)
    (attempts : List Attempt) : Prop :=
  ∃ steps, attempts = done.reverse ++ steps ∧ List.Forall₂ (Passed Turned) stops steps

/-- What trying one candidate does and tells, put together along several. -/
structure Trying (h : Host) (Does : List String → Run σ → Run σ → Prop)
    (Turned : Origin × String → Attempt → Prop) : Prop where
  nil : ∀ r, Does [] r r
  append : ∀ {paths paths' r r' r''}, Does paths r r' → Does paths' r' r'' →
    Does (paths ++ paths') r r''
  one : ∀ origin path r, Does [path] r (exec (validate h origin path) r).2
  turned : ∀ origin path (r : Run σ) a, (exec (validate h origin path) r).1 = .error a →
    Turned (origin, path) a

section

variable {h : Host} {Does : List String → Run σ → Run σ → Prop}
  {Turned : Origin × String → Attempt → Prop}

theorem ToldOf.pass {done : List Attempt} {stop : Stop} {stops : List Stop} {a : Attempt}
    (hp : Passed Turned stop a) (attempts : List Attempt)
    (ht : ToldOf Turned (a :: done) stops attempts) :
    ToldOf Turned done (stop :: stops) attempts := by
  obtain ⟨steps, rfl, hs⟩ := ht
  refine ⟨a :: steps, ?_, .cons hp hs⟩
  rw [List.reverse_cons, List.append_assoc, List.singleton_append]

theorem Trying.cons (hd : Trying h Does Turned) {cs : List (Origin × String)} {c : Origin × String}
    {Told : List Attempt → Prop} {r r' : Run σ} {out : Except Error Found × Run σ}
    (hn : ∀ v, ¬ Usable h c.2 v) (hr : Does [c.2] r r') (hs : Searched h cs Does Told r' out) :
    Searched h (c :: cs) Does Told r out := by
  cases hs with
  | found hc hf hs hr' =>
    have hboth := hd.append hr hr'
    exact .found (by rw [hc, List.cons_append]) (List.forall_mem_cons.mpr ⟨hn, hf⟩) hs hboth
  | none hn' ht hr' =>
    have hboth := hd.append hr hr'
    exact .none (List.forall_mem_cons.mpr ⟨hn, hn'⟩) ht hboth

theorem Trying.search (hd : Trying h Does Turned) (done : List Attempt) (stops : List Stop)
    (r : Run σ) : Searched h (stops.filterMap Stop.candidate?) Does (ToldOf Turned done stops) r
      (exec (search h done stops) r) := by
  induction stops generalizing done r with
  | nil => exact .none (List.forall_mem_nil _) ⟨[], (List.append_nil _).symm, .nil⟩ (hd.nil r)
  | cons stop stops ih =>
    cases stop with
    | note a => exact (ih (a :: done) r).imp (ToldOf.pass (.note a))
    | candidate origin path =>
      have ho := hd.one origin path r
      have ht := hd.turned origin path r
      have hv := validate_selects h origin path r
      have hc : (Stop.candidate origin path :: stops).filterMap Stop.candidate? =
          (origin, path) :: stops.filterMap Stop.candidate? := rfl
      rw [hc]
      rcases hx : exec (validate h origin path) r with ⟨result, r'⟩
      have ha : exec ((validate h origin path).attempt : Action (Run σ) Error _) r =
          (.ok result, r') := by
        rw [exec_attempt, hx]
      rw [hx] at ho ht hv
      rw [Interpreter.search, exec_bind_of_ok ha]
      -- The first that can be used ends the search. One that cannot leaves its step.
      obtain ⟨found, rfl, hs⟩ | ⟨hn, a, rfl⟩ := hv
      · exact .found (List.nil_append _).symm (List.forall_mem_nil _) hs ho
      · have hpass : Passed Turned (.candidate origin path) a := .candidate (ht a rfl)
        exact hd.cons hn ho ((ih (a :: done) r').imp (ToldOf.pass hpass))

end

theorem launches_trying (h : Host) : Trying h
    (fun paths (r r' : Run σ) => r.Extends (Event.launchesIn paths) r') fun _ _ => True where
  nil := .refl
  append hr hr' :=
    (hr.mono fun _ => Event.launchesIn_mono (List.subset_append_left _ _)).trans
      (hr'.mono fun _ => Event.launchesIn_mono (List.subset_append_right _ _))
  one := validate_launches h
  turned _ _ _ _ _ := trivial

theorem search_settles (h : Host) (done : List Attempt) (stops : List Stop) (r : Run σ) :
    Settles h (stops.filterMap Stop.candidate?) r (exec (search h done stops) r) := by
  have hs := (launches_trying h).search done stops r
  generalize exec (search h done stops) r = out at hs ⊢
  cases hs with
  | found hc hf hs hd => exact .found hc hf hs hd
  | none hn _ hd => exact .none hn hd

theorem chosen?_eq_some (h : Host) (flag : Option String) (s : Settings) (root : String)
    (origin : Origin) (path : String) :
    chosen? (explicit h ⟨flag, s.interpreterIn root⟩) = some (origin, path) ↔
      Explicit h flag s root origin path := by
  have hj (p : String) :
      Path.joinText root p = if p.toList.head? = some '/' then p else Path.joinText root p := by
    split
    · rename_i ha
      rw [Path.joinText, Path.joinAt, if_pos (.inl ha), String.ofList_toList]
    · rfl
  constructor
  · intro hc
    cases flag with
    | some p =>
      obtain ⟨rfl, rfl⟩ := Prod.mk.inj (Option.some.inj hc)
      exact .flag rfl
    | none =>
      cases he : h.environment? "ROPIFY_PYTHON" with
      | some p =>
        have hc' : some (Origin.environment, p) = some (origin, path) := by
          rw [← hc, explicit, he]
          rfl
        obtain ⟨rfl, rfl⟩ := Prod.mk.inj (Option.some.inj hc')
        exact .environment rfl he
      | none =>
        have hc' : (s.interpreterIn root).map (Origin.settings, ·) = some (origin, path) := by
          rw [← hc, explicit, he]
          cases s.interpreterIn root <;> rfl
        obtain ⟨q, hq, hp⟩ := Option.map_eq_some_iff.mp hc'
        obtain ⟨rfl, rfl⟩ := Prod.mk.inj hp
        obtain ⟨p, hs, rfl⟩ := Option.map_eq_some_iff.mp hq
        rw [hj]
        exact .settings rfl he hs
  · intro hx
    cases hx with
    | flag hf =>
      rw [hf]
      rfl
    | environment hf he =>
      rw [hf, explicit, he]
      rfl
    | settings hf he hs =>
      rw [hf, explicit, he, Settings.interpreterIn, hs, ← hj]
      rfl

/-- The search for an interpreter. -/
theorem discover_selects (h : Host) (flag : Option String) (s : Settings) (root : String)
    (r : Run σ) :
    (∀ origin path, Explicit h flag s root origin path →
      Stands h origin path r (exec (discover h ⟨flag, s.interpreterIn root⟩) r)) ∧
    ((∀ origin path, ¬ Explicit h flag s root origin path) →
      Settles h (candidates h) r (exec (discover h ⟨flag, s.interpreterIn root⟩) r)) := by
  constructor
  · intro origin path hx
    have he := validate_launches h origin path r
    have hv := validate_selects h origin path r
    rw [discover, (chosen?_eq_some h flag s root origin path).mpr hx]
    dsimp only
    rw [exec_mapError]
    obtain ⟨found, hf, hs⟩ | ⟨hn, a, ha⟩ := hv
    · rw [hf]
      exact .found hs he
    · rw [ha]
      exact .unusable hn he
  · intro hx
    have hc : chosen? (explicit h ⟨flag, s.interpreterIn root⟩) = none := by
      refine Option.eq_none_iff_forall_ne_some.mpr fun ⟨origin, path⟩ hc => ?_
      exact hx origin path ((chosen?_eq_some h flag s root origin path).mp hc)
    rw [discover, hc, ← stops_candidates]
    exact search_settles h [] (stops h) r

end Interpreter

end Relocate
