import Relocate.Proofs.Interpreter.Selection

namespace Relocate.Interpreter

open Relocate.Action

variable {σ : Type}

/-- The engine needs Python 3.8 or a later one. -/
def Version.Recent (v : Version) : Prop :=
  3 < v.major.toNat ∨ v.major.toNat = 3 ∧ 8 ≤ v.minor.toNat

def Says (h : Host) (path : String) (v : Version) : Prop :=
  ∃ o, output? h path .version = some o ∧ o.success = true ∧
    Version.ofText? (versionText o) = some v

inductive Unversioned (h : Host) (path : String) : String → Prop
  | unstarted {e : SystemError} (hs : h.start path = .error e) :
    Unversioned h path ("failed to execute Python at " ++ path ++ ": " ++ e.message)
  | failed {o : Output} (ho : output? h path .version = some o) (hf : o.success = false) :
    Unversioned h path ("failed to execute Python at " ++ path ++ ": " ++ Utf8.textLossy o.stderr)
  | garbled {o : Output} (ho : output? h path .version = some o) (hf : o.success = true)
    (hv : Version.ofText? (versionText o) = none) :
    Unversioned h path ("invalid Python version string: " ++ Version.core (versionText o))

/-- The first check that a candidate fails: its version, if that is known by then, and the reason. -/
inductive Fails (h : Host) (path : String) : Option Version → String → Prop
  | missing (hx : h.exists? path = false) : Fails h path none "path does not exist"
  | unversioned {reason : String} (hx : h.exists? path = true) (hu : Unversioned h path reason) :
    Fails h path none reason
  | old {v : Version} (hx : h.exists? path = true) (hv : Says h path v) (hm : ¬ v.Recent) :
    Fails h path (some v) "version too old (need 3.8.0+)"
  | lacking {v : Version} {o : Output} (hx : h.exists? path = true) (hv : Says h path v)
    (hm : v.Recent) (ho : output? h path .library = some o) (hf : o.success = false) :
    Fails h path (some v) "rope not installed"

/-- The step for a candidate that is turned away. -/
inductive Rejected (h : Host) (c : Origin × String) : Attempt → Prop
  | step {v : Option Version} {reason : String} (hf : Fails h c.2 v reason) :
    Rejected h c (.rejected c.1.text c.2 (v.map Version.text) reason)

/-- The starts of a candidate: none if it is not there, one for the version, and just if that is
known and recent, one for the library. -/
inductive Probed (h : Host) (path : String) : List Event → Prop
  | missing (hx : h.exists? path = false) : Probed h path []
  | version (hx : h.exists? path = true) (hv : ∀ v, Says h path v → ¬ v.Recent) :
    Probed h path [h.launching path .version]
  | library {v : Version} (hx : h.exists? path = true) (hv : Says h path v) (hm : v.Recent) :
    Probed h path [h.launching path .version, h.launching path .library]

def Probes (h : Host) (paths : List String) (r r' : Run σ) : Prop :=
  ∃ es starts, r'.journal = r.journal ++ es ∧ List.Forall₂ (Probed h) paths starts ∧
    es.filter Event.isLaunch = starts.flatten

theorem Probes.nil (h : Host) (r : Run σ) : Probes h [] r r :=
  ⟨[], [], by rw [List.append_nil], .nil, rfl⟩

theorem Probes.append {h : Host} {paths paths' : List String} {r r' r'' : Run σ}
    (hp : Probes h paths r r') (hp' : Probes h paths' r' r'') :
    Probes h (paths ++ paths') r r'' := by
  obtain ⟨es, starts, hj, hs, he⟩ := hp
  obtain ⟨es', starts', hj', hs', he'⟩ := hp'
  refine ⟨es ++ es', starts ++ starts', ?_, List.rel_append hs hs', ?_⟩
  · rw [hj', hj, List.append_assoc]
  · rw [List.filter_append, he, he', List.flatten_append]

theorem Says.unique {h : Host} {path : String} {v w : Version} (hv : Says h path v)
    (hw : Says h path w) : v = w := by
  obtain ⟨o, ho, -, hv⟩ := hv
  obtain ⟨o', ho', -, hw⟩ := hw
  obtain rfl := Option.some.inj (ho.symm.trans ho')
  exact Option.some.inj (hv.symm.trans hw)

theorem Unversioned.not_says {h : Host} {path reason : String} {v : Version}
    (hu : Unversioned h path reason) : ¬ Says h path v := by
  rintro ⟨o, ho, hf, hv⟩
  cases hu with
  | unstarted hs =>
    rw [output?, hs] at ho
    cases ho
  | failed ho' hf' =>
    obtain rfl := Option.some.inj (ho.symm.trans ho')
    rw [hf'] at hf
    cases hf
  | garbled ho' _ hv' =>
    obtain rfl := Option.some.inj (ho.symm.trans ho')
    rw [hv'] at hv
    cases hv

theorem message_notExecuted (path reason : String) : (Error.notExecuted path reason).message =
    "failed to execute Python at " ++ path ++ ": " ++ reason := rfl

theorem message_invalidVersion (text : String) :
    (Error.invalidVersion text).message = "invalid Python version string: " ++ text := rfl

theorem readVersion_cases {h : Host} {path : String} {o : Output}
    (ho : output? h path .version = some o) :
    (∃ v, Says h path v ∧ readVersion path o = .ok v) ∨
      ∃ e : Error, Unversioned h path e.message ∧ readVersion path o = .error e := by
  unfold readVersion Version.read
  cases hf : o.success with
  | false =>
    refine .inr ⟨.notExecuted path (Utf8.textLossy o.stderr), ?_, rfl⟩
    rw [message_notExecuted]
    exact .failed ho hf
  | true =>
    cases hv : Version.ofText? (versionText o) with
    | some v => exact .inl ⟨v, ⟨o, ho, hf, hv⟩, rfl⟩
    | none =>
      refine .inr ⟨.invalidVersion (Version.core (versionText o)), ?_, rfl⟩
      rw [message_invalidVersion]
      exact .garbled ho hf hv

theorem exec_askVersion (h : Host) (path : String) (r : Run σ) :
    (∃ v, Says h path v ∧ exec (askVersion h path) r =
      (.ok v, { r with journal := r.journal ++ [h.launching path .version] })) ∨
    ∃ e : Error, Unversioned h path e.message ∧ exec (askVersion h path) r =
      (.error e, { r with journal := r.journal ++ [h.launching path .version] }) := by
  rw [askVersion_eq, exec_reading_ask]
  cases hs : h.start path with
  | error e =>
    refine .inr ⟨.notExecuted path e.message, ?_, rfl⟩
    rw [message_notExecuted]
    exact .unstarted hs
  | ok program =>
    have ho : output? h path .version =
        some (program.interpreter.output (program.task? .version)) := by
      rw [output?, hs]
    obtain ⟨v, hv, hr⟩ | ⟨e, hu, hr⟩ := readVersion_cases ho
    · exact .inl ⟨v, hv, congrArg (·, _) hr⟩
    · exact .inr ⟨e, hu, congrArg (·, _) hr⟩

theorem exec_askLibrary {h : Host} {path : String} {v : Version} (hv : Says h path v) (r : Run σ) :
    ∃ o, output? h path .library = some o ∧ exec (askLibrary h path) r =
      (.ok (readLibrary o), { r with journal := r.journal ++ [h.launching path .library] }) := by
  obtain ⟨printed, ho, -⟩ := hv
  rw [askLibrary_eq, exec_reading_ask]
  cases hs : h.start path with
  | error e =>
    rw [output?, hs] at ho
    cases ho
  | ok program =>
    refine ⟨program.interpreter.output (program.task? .library), ?_, rfl⟩
    rw [output?, hs]

theorem exec_grant {h : Host} {path : String} {v : Version} (hv : Says h path v) (origin : Origin)
    (r : Run σ) : ∃ es result, exec (grant h origin path v) r =
        (result, { r with journal := r.journal ++ h.launching path .library :: es }) ∧
      es.filter Event.isLaunch = [] ∧
      ∀ a, result = .error a → a = reject origin path (some v) "rope not installed" ∧
        ∃ o, output? h path .library = some o ∧ o.success = false := by
  obtain ⟨o, ho, hl⟩ := exec_askLibrary hv r
  have hg := exec_mapError (fun e => reject origin path (some v) e.message) (askLibrary h path) r
  have hr := readLibrary_isSome o
  rw [hl] at hg
  rw [grant, exec_bind_of_ok hg]
  cases ha : readLibrary o with
  | none =>
    rw [ha] at hr
    exact ⟨[], _, rfl, rfl, fun a he => ⟨(Except.error.inj he).symm, o, ho, hr.symm⟩⟩
  | some library =>
    refine ⟨[.logged ⟨.discovery, .info, "resolved Python interpreter",
      [("python", path), ("version", v.text), ("source", origin.text)]⟩],
      .ok ⟨path, v, library, origin⟩, ?_, rfl, fun a he => by cases he⟩
    dsimp only
    rw [exec_bind_of_ok (exec_log _ _), List.append_assoc]
    rfl

/-- One candidate: what is started to try it, and what is told of it if it is turned away. -/
theorem validate_probes (h : Host) (origin : Origin) (path : String) (r : Run σ) :
    Probes h [path] r (exec (validate h origin path) r).2 ∧
      ∀ a, (exec (validate h origin path) r).1 = .error a → Rejected h (origin, path) a := by
  have hone {es start : List Event} {r' : Run σ} (hj : r'.journal = r.journal ++ es)
      (hp : Probed h path start) (he : es.filter Event.isLaunch = start) : Probes h [path] r r' :=
    ⟨es, [start], hj, .cons hp .nil, by rw [he, List.flatten_singleton]⟩
  have hstep {v : Option Version} {reason : String} (hf : Fails h path v reason) :
      Rejected h (origin, path) (reject origin path v reason) := .step hf
  rw [validate_eq]
  cases hx : h.exists? path with
  | false =>
    refine ⟨hone (List.append_nil _).symm (.missing hx) rfl, fun a ha => ?_⟩
    obtain rfl := Except.error.inj ha
    exact hstep (.missing hx)
  | true =>
    rw [ensure_true, pure_bind]
    have hm := exec_mapError (fun e => reject origin path none e.message) (askVersion h path) r
    obtain ⟨v, hv, ha⟩ | ⟨e, hu, ha⟩ := exec_askVersion h path r
    · rw [ha] at hm
      rw [exec_bind_of_ok hm]
      cases hr : v.meetsMinimum with
      | false =>
        have hold : ¬ v.Recent := fun hrecent => by
          rw [(meetsMinimum_iff v).mpr hrecent] at hr
          cases hr
        refine ⟨hone rfl (.version hx fun w hw => hv.unique hw ▸ hold) rfl, fun a ha => ?_⟩
        obtain rfl := Except.error.inj ha
        exact hstep (.old hx hv hold)
      | true =>
        have hrecent : v.Recent := (meetsMinimum_iff v).mp hr
        obtain ⟨es, result, hg, he, hlack⟩ := exec_grant hv origin
          { r with journal := r.journal ++ [h.launching path .version] }
        rw [ensure_true, pure_bind, hg]
        refine ⟨hone (List.append_assoc _ _ _) (.library hx hv hrecent) ?_, fun a ha => ?_⟩
        · rw [List.singleton_append, List.filter_cons, List.filter_cons, he]
          rfl
        · obtain ⟨rfl, o, ho, hf⟩ := hlack a ha
          exact hstep (.lacking hx hv hrecent ho hf)
    · rw [ha] at hm
      rw [exec_bind_of_error hm]
      refine ⟨hone rfl (.version hx fun w hw => absurd hw hu.not_says) rfl, fun a ha => ?_⟩
      obtain rfl := Except.error.inj ha
      exact hstep (.unversioned hx hu)

inductive EnvironmentTrace (h : Host) (origin : Origin) (name : String) : List Attempt → Prop
  | unset (he : h.environment? name = none) : EnvironmentTrace h origin name [.notSet origin.text]
  | empty {folder : String} (he : h.environment? name = some folder) (ho : offered h name = []) :
    EnvironmentTrace h origin name [.notFound origin.text]
  | rejected {steps : List Attempt} (ho : offered h name ≠ [])
    (hs : List.Forall₂ (Rejected h) ((offered h name).map (origin, ·)) steps) :
    EnvironmentTrace h origin name steps

inductive SearchTrace (h : Host) : List Attempt → Prop
  | empty (hn : ["python3", "python"].filterMap h.which? = []) :
    SearchTrace h [.notFound "$PATH (python3/python)"]
  | rejected {steps : List Attempt} (hn : ["python3", "python"].filterMap h.which? ≠ [])
    (hs : List.Forall₂ (Rejected h)
      ((["python3", "python"].filterMap h.which?).map (.searchPath, ·)) steps) :
    SearchTrace h steps

/-- What is told of a search in vain. -/
inductive Trace (h : Host) : List Attempt → Prop
  | steps {virtual conda search : List Attempt}
    (hv : EnvironmentTrace h .virtualEnvironment "VIRTUAL_ENV" virtual)
    (hc : EnvironmentTrace h .condaEnvironment "CONDA_PREFIX" conda) (hs : SearchTrace h search) :
    Trace h ([.notSet "--python flag", .notSet "$ROPIFY_PYTHON", .notSet ".ropify/config.toml"] ++
      virtual ++ conda ++ search)

theorem probes_trying (h : Host) :
    Trying h (Probes h : List String → Run σ → Run σ → Prop) (Rejected h) where
  nil := .nil h
  append := .append
  one origin path r := (validate_probes h origin path r).1
  turned origin path r := (validate_probes h origin path r).2

theorem passed_append {h : Host} {stops stops' : List Stop} {steps : List Attempt}
    (hp : List.Forall₂ (Passed (Rejected h)) (stops ++ stops') steps) :
    ∃ front back, steps = front ++ back ∧ List.Forall₂ (Passed (Rejected h)) stops front ∧
      List.Forall₂ (Passed (Rejected h)) stops' back := by
  have hf := List.forall₂_take stops.length hp
  have hb := List.forall₂_drop stops.length hp
  rw [List.take_left] at hf
  rw [List.drop_left] at hb
  exact ⟨_, _, (List.take_append_drop stops.length steps).symm, hf, hb⟩

theorem passed_notes {h : Host} (notes : List Attempt) {steps : List Attempt}
    (hp : List.Forall₂ (Passed (Rejected h)) (notes.map .note) steps) : steps = notes := by
  induction notes generalizing steps with
  | nil =>
    cases hp
    rfl
  | cons a notes ih =>
    cases hp with
    | cons ha hp =>
      cases ha
      rw [ih hp]

theorem passed_candidates {h : Host} {origin : Origin} {paths : List String} {steps : List Attempt}
    (hp : List.Forall₂ (Passed (Rejected h)) (paths.map (.candidate origin)) steps) :
    List.Forall₂ (Rejected h) (paths.map (origin, ·)) steps := by
  rw [List.forall₂_map_left_iff] at hp ⊢
  refine hp.imp fun path a ha => ?_
  cases ha with
  | candidate ht => exact ht

theorem environmentStops_trace {h : Host} {origin : Origin} {name : String} {steps : List Attempt}
    (hp : List.Forall₂ (Passed (Rejected h)) (environmentStops h origin name) steps) :
    EnvironmentTrace h origin name steps := by
  unfold environmentStops at hp
  cases he : h.environment? name with
  | none =>
    rw [he] at hp
    obtain rfl := passed_notes [.notSet origin.text] hp
    exact .unset he
  | some folder =>
    have ho : offered h name = inEnvironment h folder := by
      rw [offered, he]
      rfl
    rw [he] at hp
    dsimp only at hp
    rw [← ho] at hp
    cases hin : offered h name with
    | nil =>
      rw [hin] at hp
      obtain rfl := passed_notes [.notFound origin.text] hp
      exact .empty he hin
    | cons path paths =>
      have hne : offered h name ≠ [] := by simp [hin]
      rw [hin] at hp
      refine .rejected hne ?_
      rw [hin]
      exact passed_candidates hp

theorem searchStops_trace {h : Host} {steps : List Attempt}
    (hp : List.Forall₂ (Passed (Rejected h)) (searchStops h) steps) : SearchTrace h steps := by
  have hnames : names.filterMap h.which? = ["python3", "python"].filterMap h.which? := rfl
  rw [searchStops, hnames] at hp
  cases hin : ["python3", "python"].filterMap h.which? with
  | nil =>
    rw [hin] at hp
    obtain rfl := passed_notes [.notFound "$PATH (python3/python)"] hp
    exact .empty hin
  | cons path paths =>
    have hne : ["python3", "python"].filterMap h.which? ≠ [] := by simp [hin]
    rw [hin] at hp
    refine .rejected hne ?_
    rw [hin]
    exact passed_candidates hp

theorem stops_trace {h : Host} {attempts : List Attempt}
    (ht : ToldOf (Rejected h) [] (stops h) attempts) : Trace h attempts := by
  obtain ⟨steps, rfl, hp⟩ := ht
  obtain ⟨rest, search, rfl, hp, hsearch⟩ := passed_append hp
  obtain ⟨rest, conda, rfl, hp, hconda⟩ := passed_append hp
  obtain ⟨rest, virtual, rfl, hp, hvirtual⟩ := passed_append hp
  obtain rfl := passed_notes [.notSet "--python flag", .notSet "$ROPIFY_PYTHON",
    .notSet ".ropify/config.toml"] hp
  exact .steps (environmentStops_trace hvirtual) (environmentStops_trace hconda)
    (searchStops_trace hsearch)

def Choice.explicit? (h : Host) (c : Choice) : Option String :=
  c.flag <|> h.environment? "ROPIFY_PYTHON" <|> c.settings

theorem chosen?_map (h : Host) (c : Choice) :
    (chosen? (explicit h c)).map Prod.snd = c.explicit? h := by
  unfold explicit Choice.explicit?
  cases c.flag with
  | some path => rfl
  | none =>
    cases h.environment? "ROPIFY_PYTHON" with
    | some path => rfl
    | none => cases c.settings <;> rfl

/-- A search and its traces. An explicit choice is the only candidate, and there is no trace. -/
inductive Traced (h : Host) (c : Choice) (r : Run σ) : Except Error Found × Run σ → Prop
  | chosen {path : String} {result : Except Error Found} {r' : Run σ}
    (hx : c.explicit? h = some path) (hr : ∀ attempts, result ≠ .error (.noneUsable attempts))
    (hp : Probes h [path] r r') : Traced h c r (result, r')
  | searched {out : Except Error Found × Run σ} (hx : c.explicit? h = none)
    (hs : Searched h (candidates h) (Probes h) (Trace h) r out) : Traced h c r out

/-- What the search tells is complete, and so is what it starts. -/
theorem discover_traced (h : Host) (c : Choice) (r : Run σ) :
    Traced h c r (exec (discover h c) r) := by
  have hm := chosen?_map h c
  unfold discover
  cases hx : chosen? (explicit h c) with
  | none =>
    rw [hx] at hm
    have hs := (probes_trying h).search [] (stops h) r
    rw [stops_candidates] at hs
    exact .searched hm.symm (hs.imp fun _ => stops_trace)
  | some chosen =>
    obtain ⟨origin, path⟩ := chosen
    rw [hx] at hm
    dsimp only
    rw [exec_mapError]
    refine .chosen hm.symm (fun attempts he => ?_) (validate_probes h origin path r).1
    cases hv : (exec (validate h origin path) r).1 with
    | ok found =>
      rw [hv] at he
      cases he
    | error a =>
      rw [hv] at he
      cases he

end Relocate.Interpreter
