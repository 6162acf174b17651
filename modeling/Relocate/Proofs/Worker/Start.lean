import Relocate.Proofs.Files.Canonical
import Relocate.Proofs.Worker.Exchange

namespace Relocate.Worker

def tidings? (line : Line) : Option (Except String Greeting) :=
  match said? line with
  | none => some (.error (Link.ungreeted (some .notText)))
  | some [] => none
  | some said =>
    match (Greeting.ofText? said).filter fun g => g.status = "ready" with
    | some greeting => some (.ok greeting)
    | none =>
      ((Reply.ofText? said).filter Reply.isError).map fun reply =>
        .error (reply.message.getD "unknown error")

/-- The lines up to the first that tells whether the worker is ready, and what they tell. -/
def welcome (fault : Option SystemError) : List Line → List Line × Except String Greeting :=
  decided tidings? (.error (Link.ungreeted fault))

theorem decides_of_welcome {fault : Option SystemError} {lines taken : List Line}
    {greeting : Greeting} (h : welcome fault lines = (taken, .ok greeting)) :
    Decides tidings? taken (.ok greeting) := by
  unfold welcome at h
  obtain hd | hd := decides_of_decided tidings? (.error (Link.ungreeted fault)) lines
  · rwa [h] at hd
  · cases (Prod.mk.inj (h.symm.trans hd)).2

def started : Except String Greeting → Except Error Unit
  | .ok _ => .ok ()
  | .error reason => .error (.notStarted reason)

namespace Link

open Relocate.Action

def greeted (k : Link) : Except String Greeting → Link
  | .ok greeting => { k with version := some greeting.version }
  | .error _ => k.stopped

/-- What a line leads to for whoever waits for a greeting, and would wait for `more`. -/
def hear (line : Line) (more : Act Unit) : Act Unit :=
  match line.text? with
  | none => do
    stop
    throw (.notStarted (ungreeted (some .notText)))
  | some text =>
    let said := Text.trim text.toList
    if said.isEmpty then more
    else
      match (Greeting.ofText? said).filter fun g => g.status = "ready" with
      | some greeting => do
        Run.log ⟨.worker, .debug, "rope worker ready",
          [("worker", greeting.version), ("rope", greeting.libraryVersion)]⟩
        change fun k => { k with version := some greeting.version }
      | none =>
        match (Reply.ofText? said).filter Reply.isError with
        | some reply => do
          stop
          throw (.notStarted (reply.message.getD "unknown error"))
        | none => do
          Run.log ⟨.worker, .warn, "ignoring unexpected worker output before ready",
            [("line", Text.quoted (String.ofList said))]⟩
          more

theorem awaitGreeting_cons (fault : Option SystemError) (line : Line) (rest : List Line) :
    awaitGreeting fault (line :: rest) =
      leave rest >>= fun _ => hear line (awaitGreeting fault rest) := rfl

theorem exec_hear (line : Line) :
    ∃ entries : List Log.Entry,
      (∃ v, tidings? line = some v ∧ ∀ more r, exec (hear line more) r =
        (started v, { r with
          journal := r.journal ++ entries.map .logged
          engine := r.engine.greeted v })) ∨
      (tidings? line = none ∧ ∀ more r, exec (hear line more) r =
        exec more { r with journal := r.journal ++ entries.map .logged }) := by
  unfold hear tidings? said?
  cases line.text? with
  | none => exact ⟨[], .inl ⟨_, rfl, fun _ r => by rw [List.map_nil, List.append_nil]; rfl⟩⟩
  | some text =>
    simp only [Option.map_some]
    cases Text.trim text.toList with
    | nil => exact ⟨[], .inr ⟨rfl, fun _ r => by rw [List.map_nil, List.append_nil]; rfl⟩⟩
    | cons c said =>
      simp only [List.isEmpty_cons, Bool.false_eq_true, ↓reduceIte]
      cases (Greeting.ofText? (c :: said)).filter fun g => g.status = "ready" with
      | some greeting => exact ⟨[_], .inl ⟨_, rfl, fun _ _ => rfl⟩⟩
      | none =>
        simp only
        cases (Reply.ofText? (c :: said)).filter Reply.isError with
        | some reply =>
          exact ⟨[], .inl ⟨_, rfl, fun _ r => by rw [List.map_nil, List.append_nil]; rfl⟩⟩
        | none => exact ⟨[_], .inr ⟨rfl, fun _ r => exec_bind_of_ok (exec_log _ r)⟩⟩

/-- Waiting for a greeting takes the lines that tell whether the worker is ready. It is given up if
they tell that it is not. -/
theorem exec_awaitGreeting (fault : Option SystemError) (lines : List Line) (r : Run Link)
    (p : Pipes) (hp : r.engine.pipes = some p) :
    ∃ r', exec (awaitGreeting fault lines) r = (started (welcome fault lines).2, r') ∧ r.Logged r' ∧
      r'.engine =
        (r.engine.piping { p with unread := lines.drop (welcome fault lines).1.length }).greeted
          (welcome fault lines).2 := by
  -- At each line the pipe holds the lines after it.
  induction lines generalizing r p with
  | nil => exact ⟨_, rfl, .engine r _, rfl⟩
  | cons line rest ih =>
    rw [awaitGreeting_cons, exec_bind_of_ok (exec_leave hp rest)]
    obtain ⟨entries, ⟨v, hv, he⟩ | ⟨hv, he⟩⟩ := exec_hear line
    · rw [he, welcome, decided_of_some hv]
      exact ⟨_, rfl, ⟨⟨entries, rfl⟩, rfl, rfl⟩, rfl⟩
    · obtain ⟨r', he', hr', hk'⟩ := ih { r with
          journal := r.journal ++ entries.map .logged
          engine := r.engine.piping { p with unread := rest } } _ (pipes_piping hp _)
      refine ⟨r', ?_, (Run.Logged.entries r entries _).trans hr', ?_⟩
      · rw [he, he', welcome, decided_of_none hv]
      · rw [hk', welcome, decided_of_none hv, piping_piping]
        rfl

theorem exec_awaitGreeting_decided {taken : List Line} {v : Except String Greeting}
    (h : Decides tidings? taken v) :
    ∃ entries : List Log.Entry, ∀ fault rest r p, r.engine.pipes = some p →
      exec (awaitGreeting fault (taken ++ rest)) r = (started v, { r with
        journal := r.journal ++ entries.map .logged
        engine := (r.engine.piping { p with unread := rest }).greeted v }) := by
  obtain ⟨skipped, last, rfl, hs, hl⟩ := h
  induction skipped with
  | nil =>
    obtain ⟨entries, ⟨v', hv, he⟩ | ⟨hv, -⟩⟩ := exec_hear last
    · obtain rfl := Option.some.inj (hv.symm.trans hl)
      refine ⟨entries, fun fault rest r p hp => ?_⟩
      rw [List.nil_append, List.singleton_append, awaitGreeting_cons,
        exec_bind_of_ok (exec_leave hp rest), he]
    · rw [hv] at hl
      cases hl
  | cons line skipped ih =>
    obtain ⟨hline, hs⟩ := List.forall_mem_cons.mp hs
    obtain ⟨said, ⟨v', hv, -⟩ | ⟨-, he⟩⟩ := exec_hear line
    · rw [hline] at hv
      cases hv
    · obtain ⟨entries, ih⟩ := ih hs
      refine ⟨said ++ entries, fun fault rest r p hp => ?_⟩
      rw [List.cons_append, List.cons_append, awaitGreeting_cons,
        exec_bind_of_ok (exec_leave hp _), he, ih _ _ _ _ (pipes_piping hp _), piping_piping,
        List.map_append, List.append_assoc]

/-- What starting a worker leads to: the interpreter at a path runs as a worker, and all that it
writes after its greeting is still to be read. -/
structure Started (h : Host) (path : String) (program : Host.Running) (r r' : Run Link) : Prop where
  found : h.start path = .ok program
  journal : ∃ entries : List Log.Entry, r'.journal = r.journal ++
    .launched path .worker (some (program.file, program.task? .worker)) :: entries.map .logged
  running : r'.engine.isRunning = true
  nextId : r'.engine.nextId = 1
  greeted : ∃ greeting,
    (program.interpreter.doing (program.task? .worker)).worker.unread = greeting ++ r'.engine.unread

structure Abandoned (r r' : Run Link) : Prop where
  running : r'.engine.isRunning = false
  journal : ∃ es, r'.journal = r.journal ++ es ∧ sentBytes es = []

def workerOf (program : Host.Running) : Pipes :=
  (program.interpreter.doing (program.task? .worker)).worker

def spawned (path : String) (program : Host.Running) (r : Run Link) : Run Link :=
  { r with
    journal := r.journal ++ [.launched path .worker (some (program.file, program.task? .worker)),
      .logged ⟨.worker, .info, "spawned rope worker", [("pid", "?"), ("python", path)]⟩]
    engine := ⟨some (.spawned path), some (workerOf program).toInlet,
      some (workerOf program).toOutlet, 1, none, none⟩ }

/-- A host on which a worker can be started: there is a program at the path, and all that is needed
to run it. -/
structure Finds (h : Host) (path : String) (program : Host.Running) : Prop where
  present : h.exists? path = true
  script : h.script = .ok ()
  start : h.start path = .ok program

theorem finds_or_lost (h : Host) (path : String) :
    (∃ program, Finds h path program) ∨
      (h.exists? path = true → h.script = .ok () → ∃ e, h.start path = .error e) := by
  by_cases hl : h.exists? path = true ∧ h.script = .ok ()
  · cases hs : h.start path with
    | ok program => exact .inl ⟨program, hl.1, hl.2, hs⟩
    | error e => exact .inr fun _ _ => ⟨e, rfl⟩
  · exact .inr fun hx hk => absurd ⟨hx, hk⟩ hl

theorem exec_start_found {h : Host} {path : String} {program : Host.Running} (r : Run Link)
    (hf : Finds h path program) :
    exec (start h path) r =
      exec (awaitGreeting (workerOf program).fault (workerOf program).unread)
        (spawned path program r) := by
  have hl := h.exec_launch path .worker r
  rw [Host.launching, hf.start] at hl
  have hm := exec_mapError (fun e => Error.notStarted e.message) (h.launch path .worker) r
  rw [hl] at hm
  unfold start
  rw [hf.present, hf.script]
  refine (exec_bind_of_ok hm).trans ((exec_bind_of_ok (exec_log _ _)).trans ?_)
  refine (exec_bind_of_ok (exec_change _ _)).trans ?_
  rw [spawned, List.append_assoc]
  rfl

theorem exec_start_unscripted {h : Host} {path : String} {e : SystemError} (r : Run Link)
    (hx : h.exists? path = true) (hk : h.script = .error e) :
    exec (start h path) r = (.error (.io e), r) := by
  unfold start
  rw [hx, hk]
  rfl

theorem exec_start_lost {h : Host} {path : String} (r : Run Link)
    (hs : h.exists? path = true → h.script = .ok () → ∃ e, h.start path = .error e) :
    ∃ e es, exec (start h path) r = (.error e, { r with journal := r.journal ++ es }) ∧
      sentBytes es = [] ∧ workers es = [] := by
  by_cases hx : h.exists? path = true
  · cases hk : h.script with
    | error e =>
      rw [exec_start_unscripted r hx hk]
      exact ⟨.io e, [], by rw [List.append_nil], rfl, rfl⟩
    | ok _ =>
      obtain ⟨e, he⟩ := hs hx hk
      have hl := h.exec_launch path .worker r
      rw [Host.launching, he] at hl
      have hm := exec_mapError (fun e => Error.notStarted e.message) (h.launch path .worker) r
      rw [hl] at hm
      unfold start
      rw [hx, hk]
      exact ⟨_, _, (exec_bind_of_ok rfl).trans (exec_bind_of_error hm), rfl, rfl⟩
  · unfold start
    rw [Bool.eq_false_iff.mpr hx]
    exact ⟨.noInterpreter path, [], by rw [List.append_nil]; rfl, rfl, rfl⟩

theorem exec_start_spawned {h : Host} {path : String} {program : Host.Running} (r : Run Link)
    (hf : Finds h path program) :
    ∃ r', exec (start h path) r = (started (welcome (workerOf program).fault
        (workerOf program).unread).2, r') ∧ (spawned path program r).Logged r' ∧
      r'.engine = ((spawned path program r).engine.piping { workerOf program with
        unread := (workerOf program).unread.drop
          (welcome (workerOf program).fault (workerOf program).unread).1.length }).greeted
            (welcome (workerOf program).fault (workerOf program).unread).2 := by
  have hp : (spawned path program r).engine.pipes = some (workerOf program) := rfl
  rw [exec_start_found r hf]
  exact exec_awaitGreeting _ _ _ _ hp

theorem start_ok {h : Host} {path : String} {r r' : Run Link}
    (hs : exec (start h path) r = (.ok (), r')) :
    ∃ program greeting, Finds h path program ∧
      (welcome (workerOf program).fault (workerOf program).unread).2 = .ok greeting ∧
      (spawned path program r).Logged r' ∧
      r'.engine = ⟨some (.spawned path), some (workerOf program).toInlet,
        some { (workerOf program).toOutlet with
          unread := (workerOf program).unread.drop
            (welcome (workerOf program).fault (workerOf program).unread).1.length },
        1, some greeting.version, none⟩ := by
  obtain ⟨program, hf⟩ | hl := finds_or_lost h path
  · obtain ⟨r'', he, hj, hk⟩ := exec_start_spawned r hf
    obtain ⟨hw, rfl⟩ := Prod.mk.inj (he.symm.trans hs)
    cases hv : (welcome (workerOf program).fault (workerOf program).unread).2 with
    | ok greeting =>
      rw [hv] at hk
      exact ⟨program, greeting, hf, hv, hj, hk⟩
    | error reason =>
      rw [hv] at hw
      cases hw
  · obtain ⟨e, es, he, -⟩ := exec_start_lost r hl
    rw [he] at hs
    cases hs

theorem running_of_start {h : Host} {path : String} {r r' : Run Link}
    (hs : exec (start h path) r = (.ok (), r')) : r'.engine.isRunning = true := by
  obtain ⟨program, greeting, -, -, -, hk⟩ := start_ok hs
  rw [hk]
  rfl

/-- A worker is started and greets, or it is given up before anything is asked. -/
theorem exec_start (h : Host) (path : String) {r : Run Link} (hr : r.engine.isRunning = false) :
    ∃ res r', exec (start h path) r = (res, r') ∧
      ((∃ e, res = .error e ∧ Abandoned r r') ∨
        res = .ok () ∧ ∃ program, Started h path program r r') := by
  obtain ⟨program, hf⟩ | hl := finds_or_lost h path
  · obtain ⟨r', he, hj, hk⟩ := exec_start_spawned r hf
    obtain ⟨entries, hj⟩ := hj.journal
    rw [spawned, List.append_assoc] at hj
    refine ⟨_, r', he, ?_⟩
    cases hw : (welcome (workerOf program).fault (workerOf program).unread).2 with
    | error reason =>
      rw [hw] at hk
      refine .inl ⟨.notStarted reason, rfl, by rw [hk]; rfl, _, hj, ?_⟩
      rw [sentBytes_append, sentBytes_logged]
      rfl
    | ok greeting =>
      rw [hw] at hk
      refine .inr ⟨rfl, program, hf.start, ⟨_ :: entries, hj⟩, by rw [hk]; rfl, by rw [hk]; rfl, ?_⟩
      rw [hk]
      exact ⟨_, (decided_append tidings? _ _).symm⟩
  · obtain ⟨e, es, he, hes, -⟩ := exec_start_lost r hl
    exact ⟨_, _, he, .inl ⟨e, rfl, hr, es, rfl, hes⟩⟩

section

def soloHost (i : Interpreter) : Host :=
  ⟨⟨[(["python3"], .file [] true)]⟩, [], [], [(["python3"], i)], .ok (), .brief⟩

variable (i : Interpreter)

theorem soloHost_locate :
    (soloHost i).files.locate (soloHost i).folder "/python3" = .ok ["python3"] := by
  have hc : (soloHost i).files.Canonical ["python3"] :=
    .child .root rfl (by constructor <;> decide) (by decide) rfl (by simp)
  have hl : Location.written ["python3"] = "/python3" := by decide
  rw [← hl]
  exact FileSystem.locate_canonical hc (by decide) (by decide) _

theorem soloHost_exists : (soloHost i).exists? "/python3" = true := by
  rw [Host.exists?, FileSystem.exists?, soloHost_locate]
  rfl

theorem soloHost_start : (soloHost i).start "/python3" = .ok ⟨["python3"], i, none⟩ := by
  have hx : (soloHost i).executable "/python3" = .ok (["python3"], []) := by
    rw [Host.executable, if_neg (by decide), soloHost_locate]
    rfl
  have hs : (soloHost i).start "/python3" = (soloHost i).startAt "/python3" := rfl
  rw [hs, Host.startAt, Host.maxLinks, Host.follow, hx]
  rfl

theorem soloHost_finds : Finds (soloHost i) "/python3" ⟨["python3"], i, none⟩ :=
  ⟨soloHost_exists i, rfl, soloHost_start i⟩

def greetingLine : Line :=
  Utf8.encode "\x7b\"status\": \"ready\", \"version\": \"1.0\", \"rope_version\": \"1.13\"\x7d\n"

theorem tidings?_greetingLine :
    tidings? greetingLine = some (.ok ⟨"ready", "1.0", "1.13"⟩) := by
  have hg : (said? greetingLine).bind Greeting.ofText? = some ⟨"ready", "1.0", "1.13"⟩ := by
    decide +kernel
  obtain ⟨said, hs, hg⟩ := Option.bind_eq_some_iff.mp hg
  cases said with
  | nil => cases hg
  | cons c said =>
    rw [tidings?, hs]
    dsimp only
    rw [hg]
    rfl

end

end Link

end Relocate.Worker
