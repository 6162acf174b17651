import Relocate.Proofs.CommandLine.Fault
import Relocate.Proofs.Interpreter.Working
import Relocate.Proofs.Session.Steady
import Relocate.Proofs.Worker.Framing

namespace Relocate.CommandLine

open Relocate.Action Session Worker
open Utf8 (Bytes textLossy)

def prepare (h : Host) (i : Invocation) : Act (Settings × Interpreter.Found × Bytes) := do
  let settings ← (Settings.ofProject h i.project).mapError (Settings.Error.failure h.wording)
  let found ← (Interpreter.discover h ⟨i.python, settings.interpreterIn i.project⟩).mapError
    Interpreter.Error.failure
  let root ← canonicalRoot h i.project
  return (settings, found, root)

def proceed (h : Host) (i : Invocation) (a : Settings × Interpreter.Found × Bytes)
    (reported : String) (version : Option String) : Act Unit := do
  Run.log ⟨.session, .info, "opened rope project",
    [("root", textLossy a.2.2), ("python", a.2.1.version.text),
      ("rope", Text.quoted (a.2.1.library.version.getD "unknown"))]⟩
  Run.log ⟨.session, .debug, "rope project address",
    [("reported", reported), ("worker", Text.quoted (version.getD "unknown"))]⟩
  dispatch (.ofRun h (ofWorker h a.2.2)) a.1 i.request

def attend (h : Host) (i : Invocation) (a : Settings × Interpreter.Found × Bytes) : Act Unit := do
  let reported ← viaWorker h.wording
    (Link.openProject (textLossy a.2.2) (a.1.effectiveFolder i.libraryFolder))
  proceed h i a reported (← get).engine.version

def engage (h : Host) (i : Invocation) : Act Unit := do
  let a ← prepare h i
  viaWorker h.wording (Link.start h a.2.1.path)
  attend h i a

variable (h : Host) (i : Invocation)

theorem reach_eq : reach h i = prepare h i >>= fun a =>
    viaWorker h.wording (Link.start h a.2.1.path) >>= fun _ => pure a := by
  unfold reach prepare arrive
  simp only [bind_assoc, pure_bind]

theorem engage_eq : engage h i = reach h i >>= attend h i := by
  rw [reach_eq, engage]
  simp only [bind_assoc, pure_bind]

theorem exec_close_ok (r : Run Link) : exec (close h) r = (.ok (), (exec (close h) r).2) := by
  obtain ⟨r', bye, hc, -⟩ := exec_close h r
  rw [hc]

theorem exec_converse (a : Settings × Interpreter.Found × Bytes) (r : Run Link) :
    exec (converse h i.request a.1 (a.1.effectiveFolder i.libraryFolder) a.2) r =
      ((exec (attend h i a) r).1, (exec (close h) (exec (attend h i a) r).2).2) := by
  have hb : exec ((viaWorker h.wording (Link.openProject (textLossy a.2.2)
    (a.1.effectiveFolder i.libraryFolder))).attempt : Act _) r = _ := exec_attempt _ r
  rcases ho : exec (viaWorker h.wording (Link.openProject (textLossy a.2.2)
    (a.1.effectiveFolder i.libraryFolder))) r with ⟨res, r₁⟩
  rw [ho] at hb
  cases res with
  | error e =>
    have hi : exec (introduce h (a.1.effectiveFolder i.libraryFolder) a.2) r =
        (.error e, (exec (close h) r₁).2) := by
      rw [introduce, exec_bind_of_ok hb]
      exact exec_bind_of_ok (exec_close_ok h r₁)
    rw [converse, exec_bind_of_error hi, attend, exec_bind_of_error ho]
  | ok reported =>
    have hi : ∃ r₂, exec (introduce h (a.1.effectiveFolder i.libraryFolder) a.2) r =
        (.ok (ofWorker h a.2.2), r₂) ∧
        exec (attend h i a) r = exec (dispatch (.ofRun h (ofWorker h a.2.2)) a.1 i.request) r₂ := by
      rw [introduce, attend, exec_bind_of_ok hb, exec_bind_of_ok ho]
      exact ⟨_, rfl, rfl⟩
    obtain ⟨r₂, hi, ha⟩ := hi
    rw [converse, exec_bind_of_ok hi, ha]
    exact exec_attended h _ (exec_close_ok h _)

theorem attend_steady (a : Settings × Interpreter.Found × Bytes) : Steady (attend h i a) := by
  refine .bind (openProject_steady _ _ _) fun reported => .version fun version => ?_
  exact .bind (.log _) fun _ => .bind (.log _) fun _ => dispatch_steady h _ _ _

theorem attend_talk (a : Settings × Interpreter.Found × Bytes) {r : Run Link}
    (hr : r.engine.isRunning = true) : ∃ xs, Talk r (exec (attend h i a) r).2 xs := by
  obtain ⟨res, r₁, ho, ht, -⟩ := exec_openProject h.wording (textLossy a.2.2)
    (a.1.effectiveFolder i.libraryFolder) hr
  cases res with
  | error e =>
    rw [attend, exec_bind_of_error ho]
    exact ⟨_, ht⟩
  | ok reported =>
    have hl (e : Log.Entry) (r : Run Link) :
        Talk r { r with journal := r.journal ++ [.logged e] } [] :=
      .told ⟨rfl, [_], rfl, List.forall_mem_singleton.mpr rfl⟩
    rw [attend, exec_bind_of_ok ho, exec_bind_of_ok (exec_get r₁), proceed,
      exec_bind_of_ok (exec_log _ _), exec_bind_of_ok (exec_log _ _)]
    obtain ⟨xs, hx, -⟩ := dispatch_converses h a.2.2 a.1 i.request _
    exact ⟨_, ((ht.trans (hl _ _)).trans (hl _ _)).trans hx⟩

theorem prepare_spares : Action.Extends Event.sparesWorker (prepare h i) := by
  have hs : Action.Extends Event.sparesWorker
      (Settings.ofProject h i.project : Action (Run Link) Settings.Error Settings) :=
    fun r => (ofProject_told h i.project r).mono fun _ => Event.spares_of_told
  refine .bind (.mapError hs _) fun settings => ?_
  refine .bind (.mapError (Interpreter.discover_spares h _) _) fun found => ?_
  exact .bind (.liftM _) fun root => .pure _

variable {h i} {r : Run Link}

/-- A worker is reached if all is prepared, which starts none, and it is started then. -/
theorem exec_reach (h : Host) (i : Invocation) (r : Run Link) :
    (∃ e r₁, exec (prepare h i) r = (.error e, r₁) ∧ exec (reach h i) r = (.error e, r₁)) ∨
    ∃ a r₁, exec (prepare h i) r = (.ok a, r₁) ∧ exec (reach h i) r =
      (((exec (Link.start h a.2.1.path) r₁).1.mapError (Error.failure h.wording)).map fun _ => a,
        (exec (Link.start h a.2.1.path) r₁).2) := by
  rw [reach_eq]
  rcases hp : exec (prepare h i) r with ⟨res, r₁⟩
  cases res with
  | error e => exact .inl ⟨e, r₁, rfl, exec_bind_of_error hp⟩
  | ok a =>
    refine .inr ⟨a, r₁, rfl, ?_⟩
    have hs := exec_viaWorker h.wording (Link.start h a.2.1.path) r₁
    rw [exec_bind_of_ok hp]
    rcases he : exec (Link.start h a.2.1.path) r₁ with ⟨res, r₂⟩
    rw [he] at hs
    cases res with
    | ok u => exact exec_bind_of_ok hs
    | error e => exact exec_bind_of_error hs

theorem reach_whole (hw : r.engine.IsWhole) (hr : r.engine.isRunning = false) :
    (exec (reach h i) r).2.engine.IsWhole ∧
      ((∃ a, (exec (reach h i) r).1 = .ok a) ∨ (exec (reach h i) r).2.engine.isRunning = false) := by
  have hk := (prepare_spares h i r).engine
  obtain ⟨e, r₁, hp, he⟩ | ⟨a, r₁, hp, he⟩ := exec_reach h i r
  · rw [hp] at hk
    rw [he]
    exact ⟨hk ▸ hw, .inr (hk ▸ hr)⟩
  · rw [hp] at hk
    obtain ⟨hwhole, hend⟩ := Link.start_whole h a.2.1.path (hk ▸ hw) (hk ▸ hr)
    rw [he]
    exact ⟨hwhole, hend.imp_left fun hs => ⟨a, by rw [hs]; rfl⟩⟩

theorem reach_tends (hn : workers r.journal = []) {program : String}
    (hm : program ∈ workers (exec (reach h i) r).2.journal) :
    (exec (reach h i) r).2.engine.Tends program := by
  obtain ⟨es, hj, hes⟩ := (prepare_spares h i r).journal
  have hnone : workers (exec (prepare h i) r).2.journal = [] := by
    rw [hj, workers_append, hn, workers_none fun e he => Event.no_start_of_spares (hes e he)]
    rfl
  obtain ⟨e, r₁, hp, he⟩ | ⟨a, r₁, hp, he⟩ := exec_reach h i r
  · rw [hp] at hnone
    rw [he, hnone] at hm
    cases hm
  · rw [hp] at hnone
    rw [he] at hm ⊢
    exact Link.start_tends h _ hnone hm

/-- However it goes, a run ends with letting the worker go, and what came of it before stands. -/
theorem exec_perform (hw : r.engine.IsWhole) (hr : r.engine.isRunning = false) :
    exec (perform h i) r =
      ((exec (engage h i) r).1, (exec (close h) (exec (engage h i) r).2).2) := by
  obtain ⟨-, hend⟩ := reach_whole (h := h) (i := i) hw hr
  rw [perform_reach, engage_eq]
  rcases hx : exec (reach h i) r with ⟨res, r₁⟩
  rw [hx] at hend
  cases res with
  | ok a => rw [exec_bind_of_ok hx, exec_bind_of_ok hx, exec_converse]
  | error e =>
    have hidle : r₁.engine.isRunning = false := hend.resolve_left fun ⟨_, h⟩ => by cases h
    rw [exec_bind_of_error hx, exec_bind_of_error hx, close, exec_viaWorker,
      Link.exec_shutdown_idle hidle]

theorem engage_whole (hw : r.engine.IsWhole) (hr : r.engine.isRunning = false) :
    (exec (engage h i) r).2.engine.IsWhole := by
  obtain ⟨hwhole, -⟩ := reach_whole (h := h) (i := i) hw hr
  rw [engage_eq]
  rcases hx : exec (reach h i) r with ⟨res, r₁⟩
  rw [hx] at hwhole
  cases res with
  | ok a =>
    rw [exec_bind_of_ok hx]
    exact (attend_steady h i a r₁).1.whole hwhole
  | error e =>
    rw [exec_bind_of_error hx]
    exact hwhole

/-- How a worker is let go, from `r` to `r'`. It is asked for that just if it is still running. Its
pipes are closed then, and its end is waited for; it is killed only if it is lost over the request.
The user is shown nothing of it, and doing it again does nothing. -/
structure LetsGo (h : Host) (r r' : Run Link) : Prop where
  closes : exec (close h) r = (.ok (), r')
  gone : r'.engine.child = none ∧ r'.engine.inlet = none ∧ r'.engine.outlet = none
  /-- The end of every worker was waited for, be it now or when it was given up. -/
  waited : ∀ program ∈ workers r'.journal,
    ∃ c, r'.engine.gone = some c ∧ c.program = program ∧ c.waited = true
  idle : r.engine.isRunning = false → r' = r
  asked : ∀ p, r.engine.pipes = some p → r'.engine.nextId = r.engine.nextId + 1 ∧
    sentBytes r'.journal = sentBytes r.journal ++
      (p.write (Link.requestLine r.engine.nextId "shutdown" [])).accepted
  ended : ∀ p c, r.engine.pipes = some p → r.engine.child = some c → r'.engine.gone = some
    (if isCrash (p.answered r.engine.nextId (Link.requestLine r.engine.nextId "shutdown" []))
      then c.kill.wait else c.wait)
  shown : printed r'.journal = printed r.journal
  again : exec Link.shutdown r' = (.ok (), r')

theorem workers_close {r' : Run Link} (hc : exec (close h) r = (.ok (), r')) :
    workers r'.journal = workers r.journal := by
  obtain ⟨r₂, bye, hc', hcl⟩ := exec_close h r
  obtain ⟨-, rfl⟩ := Prod.mk.inj (hc'.symm.trans hc)
  obtain ⟨r₁, ht, hl⟩ := hcl.talk
  rw [hl.workers, ht.workers]

theorem gone_shutdown {p : Pipes} {c : Child} (hp : r.engine.pipes = some p)
    (hc : r.engine.child = some c) : (exec Link.shutdown r).2.engine.gone = some
      (if isCrash (p.answered r.engine.nextId (Link.requestLine r.engine.nextId "shutdown" []))
        then c.kill.wait else c.wait) := by
  obtain ⟨r₁, he, -, hk⟩ := Link.exec_send "shutdown" [] hp rfl
  have hn : (Link.numbered "shutdown" r).engine.child = some c := hc
  rw [Link.exec_shutdown_running (Link.running_of_pipes hp), he]
  dsimp only
  rw [hk]
  split
  · simp [Link.released, Link.stopped, Link.dismiss, Link.severed, hn]
  · simp [Link.released, Link.dismiss, Link.severed, Link.piping, hn]

theorem LetsGo.of_close {r' : Run Link} (hw : r.engine.IsWhole)
    (ht : ∀ program ∈ workers r.journal, r.engine.Tends program)
    (hc : exec (close h) r = (.ok (), r')) : LetsGo h r r' := by
  have hs : (exec Link.shutdown r).2 = r' := by
    have hv := hc
    rw [close, exec_viaWorker] at hv
    exact congrArg Prod.snd hv
  have hshown := printed_silent (close_silent h) r
  rw [hc] at hshown
  cases hr : r.engine.isRunning with
  | false =>
    rw [Link.exec_shutdown_idle hr] at hs
    obtain rfl : r = r' := hs
    have hgone := hw.resolve_left (by simp [hr])
    exact {
      closes := hc
      gone := hgone
      waited := fun program hm => (ht program hm).gone hgone.1
      idle := fun _ => rfl
      asked := fun p hp => absurd (Link.running_of_pipes hp) (by simp [hr])
      ended := fun p c hp => absurd (Link.running_of_pipes hp) (by simp [hr])
      shown := hshown
      again := Link.exec_shutdown_idle hr }
  | true =>
    obtain ⟨p, hp⟩ := Link.pipes_of_running hr
    have hgone : r'.engine.child = none ∧ r'.engine.inlet = none ∧ r'.engine.outlet = none := by
      rw [← hs, Link.exec_shutdown_running hr]
      exact ⟨rfl, rfl, rfl⟩
    have htends : ∀ program ∈ workers r.journal, r'.engine.Tends program := by
      intro program hm
      rw [← hs, Link.exec_shutdown_running hr]
      exact (Link.send_tends "shutdown" [] hp (ht program hm)).released
    exact {
      closes := hc
      gone := hgone
      waited := fun program hm => (htends program (workers_close hc ▸ hm)).gone hgone.1
      idle := fun hn => absurd hn (by simp [hr])
      asked := fun p hp => hs ▸ ⟨Link.nextId_run .shutdown hr, Link.sentBytes_run .shutdown hp⟩
      ended := fun p c hp hc => hs ▸ gone_shutdown hp hc
      shown := hshown
      again := Link.exec_shutdown_idle (by rw [Link.isRunning, hgone.1]; rfl) }

/-- Pipes `p'` of a worker that differs from one with pipes `p` in nothing before the point where a
run has left the link `k`: it has written the same lines up to the last that was read, and taken all
requests. From there on it may write anything, close its pipes, or be gone. -/
inductive DiffersAfter (k : Link) (p p' : Pipes) : Prop
  | nowhere (h : p' = p)
  | later {heard rest : List Line} (hr : k.isRunning = true) (hu : p.unread = heard ++ k.unread)
    (hu' : p'.unread = heard ++ rest) (hc : p'.TakesBelow k.nextId 1)

theorem readOuter_working (h : Host) (work : Location → Pipes) (p : Progress) (words : List String) :
    readOuter (h.working work) p words = readOuter h p words := by
  induction words generalizing p with
  | nil => rfl
  | cons word rest ih =>
    rw [readOuter, readOuter]
    cases command? p word with
    | some command => cases command <;> rfl
    | none =>
      have ht : take (h.working work) .outer p word = take h .outer p word := rfl
      rw [ht]
      exact congrArg (take h .outer p word).bind (funext fun p => ih p)

theorem read_working (h : Host) (work : Location → Pipes) (words : List String) :
    read (h.working work) words = read h words := by
  have ht : take (h.working work) = take h := rfl
  have hs : Progress.settle (h.working work) = Progress.settle h := rfl
  have hi : readInner (h.working work) = readInner h := by
    unfold readInner
    rw [ht, hs]
  unfold read
  rw [readOuter_working, hi, hs]

theorem prepare_working (h : Host) (i : Invocation) (work : Location → Pipes) :
    prepare (h.working work) i = prepare h i := by
  have hx : (h.working work).exists? = h.exists? := rfl
  have hl : Settings.load (h.working work) = Settings.load h := rfl
  have hc : canonicalRoot (h.working work) = canonicalRoot h := rfl
  have hw : (h.working work).wording = h.wording := rfl
  unfold prepare Settings.ofProject
  simp only [Interpreter.discover_working, hx, hl, hc, hw]

theorem attend_working (h : Host) (i : Invocation) (work : Location → Pipes)
    (a : Settings × Interpreter.Found × Bytes) : attend (h.working work) i a = attend h i a := by
  have hd (s : Session (Run Link)) : dispatch (.ofRun (h.working work) s) a.1 i.request =
      dispatch (.ofRun h s) a.1 i.request := by
    cases i.request <;> rfl
  have hs : ofWorker (h.working work) a.2.2 = ofWorker h a.2.2 := rfl
  have hw : (h.working work).wording = h.wording := rfl
  unfold attend proceed
  simp only [hd, hs, hw]

theorem start_bind_working {work : Location → Pipes} {path : String} {program : Host.Running}
    {a : Act Unit} (ha : Steady a) (hw : r.engine.IsWhole) (hr : r.engine.isRunning = false)
    (hs : h.start path = .ok program)
    (hd : DiffersAfter (exec (viaWorker h.wording (Link.start h path) >>= fun _ => a) r).2.engine
      (Link.workerOf program) (Link.workerOf (program.working work))) :
    (exec (viaWorker h.wording (Link.start (h.working work) path) >>= fun _ => a) r).1 =
        (exec (viaWorker h.wording (Link.start h path) >>= fun _ => a) r).1 ∧
      (exec (viaWorker h.wording (Link.start (h.working work) path) >>= fun _ => a) r).2.journal =
        (exec (viaWorker h.wording (Link.start h path) >>= fun _ => a) r).2.journal := by
  cases hd with
  | nowhere hsame =>
    rw [Link.start_working h work fun program' hs' => ?_]
    · exact ⟨rfl, rfl⟩
    · obtain rfl := Except.ok.inj (hs.symm.trans hs')
      exact hsame
  | @later heard rest hrun hu hu' hc =>
    have hm := exec_viaWorker h.wording (Link.start h path) r
    obtain ⟨-, hend⟩ := Link.start_whole h path hw hr
    rcases he : exec (Link.start h path) r with ⟨res, r₁⟩
    rw [he] at hm hend
    cases res with
    | error e =>
      rw [exec_bind_of_error hm, hend.resolve_left fun h => by cases h] at hrun
      cases hrun
    | ok u =>
      rw [exec_bind_of_ok hm] at hrun hu hc ⊢
      have hself := Link.Follows.self hrun
      obtain ⟨honward, htwins⟩ := ha r₁
      have hs' : (h.working work).start path = .ok (program.working work) := by
        rw [Host.start_working, hs]
        rfl
      obtain ⟨program', -, hf, -⟩ := Link.start_ok he
      obtain rfl := Except.ok.inj (hs.symm.trans hf.start)
      have hf' : Link.Finds (h.working work) path (program.working work) :=
        ⟨hf.present, hf.script, hs'⟩
      obtain ⟨t, he', ht⟩ := Link.start_twins hf hf' rfl rfl hu hu' hc he (honward.follows hself)
      obtain ⟨t', hx, ht'⟩ := htwins _ _ _ t ht hself
      have hm' := exec_viaWorker h.wording (Link.start (h.working work) path) r
      rw [he'] at hm'
      rw [exec_bind_of_ok hm', hx]
      exact ⟨rfl, ht'.journal_eq⟩

theorem DiffersAfter.program {k : Link} {work : Location → Pipes} {program : Host.Running}
    (h : DiffersAfter k program.interpreter.worker (work program.file)) :
    DiffersAfter k (Link.workerOf program) (Link.workerOf (program.working work)) := by
  rw [Link.workerOf_working]
  by_cases ht : program.task? .worker = some .worker
  · rw [if_pos ht]
    unfold Link.workerOf
    rwa [ht]
  · rw [if_neg ht]
    exact .nowhere rfl

/-- What a worker would do after its last reply makes no difference before it is let go. -/
theorem engage_working {work : Location → Pipes} (hw : r.engine.IsWhole)
    (hr : r.engine.isRunning = false)
    (hd : ∀ l j, h.interpreters.lookup l = some j →
      DiffersAfter (exec (engage h i) r).2.engine j.worker (work l)) :
    (exec (engage (h.working work) i) r).1 = (exec (engage h i) r).1 ∧
      (exec (engage (h.working work) i) r).2.journal = (exec (engage h i) r).2.journal := by
  have hk := (prepare_spares h i r).engine
  have hwording : (h.working work).wording = h.wording := rfl
  unfold engage at hd ⊢
  rw [prepare_working]
  simp only [attend_working, hwording]
  rcases hx : exec (prepare h i) r with ⟨res, r₁⟩
  rw [hx] at hk
  dsimp only at hk
  cases res with
  | error e =>
    rw [exec_bind_of_error hx, exec_bind_of_error hx]
    exact ⟨rfl, rfl⟩
  | ok a =>
    rw [exec_bind_of_ok hx] at hd
    rw [exec_bind_of_ok hx, exec_bind_of_ok hx]
    cases hs : h.start a.2.1.path with
    | error e =>
      rw [Link.start_working h work fun program hp => by cases hs.symm.trans hp]
      exact ⟨rfl, rfl⟩
    | ok program =>
      exact start_bind_working (attend_steady h i a) (hk ▸ hw) (hk ▸ hr) hs
        (hd _ _ (Host.start_lookup hs)).program

theorem ended_printed (res : Except Failure Unit) (f : Log.Filter) {journal journal' : List Event}
    (hp : printed journal' = printed journal) :
    (ended res f journal').exit = (ended res f journal).exit ∧
      (ended res f journal').stdout = (ended res f journal).stdout ∧
      (ended res f journal').stderr = (ended res f journal).stderr := by
  cases res with
  | ok u => exact ⟨rfl, hp, rfl⟩
  | error e => cases hg : e.isGuard <;> simp [ended, hg, hp]

section

variable (h : Host) (i : Invocation) (input : Utf8.Bytes)

/-- What a run of the program has come to when it lets its worker go. -/
def engaged : Except Failure Unit × Run Link :=
  exec (engage h i) (fresh (Line.ofStream input) none none)

def finished : Except Failure Unit × Run Link :=
  exec (perform h i) (fresh (Line.ofStream input) none none)

theorem fresh_whole (input : List Line) : (fresh input none none).engine.IsWhole :=
  .inr ⟨rfl, rfl, rfl⟩

theorem finished_eq :
    finished h i input = ((engaged h i input).1, (exec (close h) (engaged h i input).2).2) :=
  exec_perform (fresh_whole _) rfl

theorem engaged_tends {program : String} (hm : program ∈ workers (engaged h i input).2.journal) :
    (engaged h i input).2.engine.Tends program := by
  have ht : program ∈ workers (exec (reach h i) (fresh (Line.ofStream input) none none)).2.journal →
      (exec (reach h i) (fresh (Line.ofStream input) none none)).2.engine.Tends program :=
    reach_tends rfl
  rw [engaged, engage_eq] at hm ⊢
  rcases hx : exec (reach h i) (fresh (Line.ofStream input) none none) with ⟨res, r⟩
  rw [hx] at ht
  cases res with
  | error e =>
    rw [exec_bind_of_error hx] at hm ⊢
    exact ht hm
  | ok a =>
    obtain ⟨-, found, r₀, -, hs⟩ := reach_ready hx
    obtain ⟨xs, hxs⟩ := attend_talk h i a hs.running
    rw [exec_bind_of_ok hx] at hm ⊢
    exact (attend_steady h i a r).1.tends program (ht (hxs.workers ▸ hm))

variable {h i} {words : List String}

theorem execute_finished (hi : read h words = .ok i) : execute h input words =
    ended (finished h i input).1 (.choose (h.environment? "RUST_LOG") i.level)
      (finished h i input).2.journal := execute_eq hi

end

/-- Letting the worker go is the last thing that a run does, and nothing depends on how it goes. Every
run ends with what came of it before, and with the worker gone and waited for; it has asked it to
leave just if it was still there. Two runs whose workers differ only in what they do after the last
reply that is read end with the same result, report, complaint and exit status. -/
theorem shutdown_inert (h : Host) (input : Utf8.Bytes) (words : List String) :
    (∀ i, read h words = .ok i → (finished h i input).1 = (engaged h i input).1 ∧
      LetsGo h (engaged h i input).2 (finished h i input).2) ∧
    ∀ work : Location → Pipes,
      (∀ i, read h words = .ok i → ∀ l j, h.interpreters.lookup l = some j →
        DiffersAfter (engaged h i input).2.engine j.worker (work l)) →
      (execute (h.working work) input words).exit = (execute h input words).exit ∧
        (execute (h.working work) input words).stdout = (execute h input words).stdout ∧
        (execute (h.working work) input words).stderr = (execute h input words).stderr ∧
        ∀ i, read h words = .ok i →
          (finished (h.working work) i input).1 = (finished h i input).1 := by
  have hw := fresh_whole (Line.ofStream input)
  refine ⟨fun i _ => ?_, fun work hd => ?_⟩
  · rw [finished_eq]
    exact ⟨rfl, .of_close (engage_whole hw rfl) (fun _ => engaged_tends h i input) (exec_close_ok h _)⟩
  · have hread := read_working h work words
    cases hi : read h words with
    | error stop =>
      have hstop : execute (h.working work) input words = execute h input words := by
        unfold execute
        rw [hread, hi]
      rw [hstop]
      exact ⟨rfl, rfl, rfl, fun _ hi => by cases hi⟩
    | ok i =>
      obtain ⟨hresult, hjournal⟩ : (engaged (h.working work) i input).1 = (engaged h i input).1 ∧
        (engaged (h.working work) i input).2.journal = (engaged h i input).2.journal :=
        engage_working hw rfl (hd i hi)
      have hfinished : (finished (h.working work) i input).1 = (finished h i input).1 := by
        rw [finished_eq, finished_eq, hresult]
      have hprinted : printed (finished (h.working work) i input).2.journal =
          printed (finished h i input).2.journal := by
        rw [finished_eq, finished_eq, printed_silent (close_silent _), printed_silent (close_silent h),
          hjournal]
      have hf : (h.working work).environment? "RUST_LOG" = h.environment? "RUST_LOG" := rfl
      rw [execute_finished input (hread.trans hi), execute_finished input hi, hfinished, hf]
      obtain ⟨hexit, hout, herr⟩ := ended_printed (finished h i input).1
        (.choose (h.environment? "RUST_LOG") i.level) hprinted
      refine ⟨hexit, hout, herr, fun i' hi' => ?_⟩
      obtain rfl := Except.ok.inj hi'
      exact hfinished

section

def slamming : Pipes :=
  ⟨⟨[Link.greetingLine, refusalLine, Utf8.encode "\x7b\"id\": 2"], none⟩, ⟨some ⟨1, 3⟩⟩⟩

theorem refusing_engaged :
    (engaged (Link.soloHost refusing) asked []).2.engine.pipes = some ⟨⟨[], none⟩, ⟨none⟩⟩ ∧
    (engaged (Link.soloHost refusing) asked []).2.engine.child = some (.spawned "/python3") ∧
    (engaged (Link.soloHost refusing) asked []).2.engine.nextId = 2 := by
  obtain ⟨a, r, hr, hp, hchild⟩ := refusing_reach (Line.ofStream [])
  obtain ⟨-, program, r₀, -, hs⟩ := reach_ready hr
  obtain ⟨reply, hl, hid, hst⟩ := reply?_refusalLine
  have hv : reply.verdict = .error (.refused (reply.code.getD "") (reply.message.getD "")
      reply.traceback) := if_pos (by simpa [Reply.isError] using hst)
  have hsettle : settle r.engine.nextId none [refusalLine] = ([refusalLine], reply.verdict) :=
    decided_of_some (verdict?_reply hl (by rw [hs.nextId, hid])) _ _
  have hanswered (line : Utf8.Bytes) : Pipes.answered ⟨⟨[refusalLine], none⟩, ⟨none⟩⟩
      r.engine.nextId line = reply.verdict := by
    rw [Pipes.answered, hsettle]
    rfl
  have hafter (line : Utf8.Bytes) : Pipes.after ⟨⟨[refusalLine], none⟩, ⟨none⟩⟩
      r.engine.nextId line = ⟨⟨[], none⟩, ⟨none⟩⟩ := by
    rw [Pipes.after, hsettle]
    rfl
  have hopen := exec_viaWorker (Link.soloHost refusing).wording
    (Link.openProject (textLossy a.2.2) (a.1.effectiveFolder asked.libraryFolder)) r
  obtain ⟨r₁, he, -, hk⟩ := Link.exec_send "open_project" [("root", .string (textLossy a.2.2)),
    ("ropefolder", Json.optional Json.string (a.1.effectiveFolder asked.libraryFolder))] hp rfl
  rw [hanswered, hv] at he hk
  rw [hafter] at hk
  rw [Link.openProject_eq, exec_reading, he] at hopen
  have hq : (Link.numbered "open_project" r).engine.pipes = some ⟨⟨[refusalLine], none⟩, ⟨none⟩⟩ := hp
  have hk : r₁.engine = (Link.numbered "open_project" r).engine.piping ⟨⟨[], none⟩, ⟨none⟩⟩ := hk
  have hend : (engaged (Link.soloHost refusing) asked []).2 = r₁ := by
    rw [engaged, engage_eq, exec_bind_of_ok hr, attend, Link.openProject_eq, exec_bind_of_error hopen]
  rw [hend, hk]
  exact ⟨Link.pipes_piping hq _, hchild, congrArg (· + 1) hs.nextId⟩

theorem refusing_inert :
    read (Link.soloHost refusing) ["--python", "/python3", "show-imports", "os"] = .ok asked ∧
    DiffersAfter (engaged (Link.soloHost refusing) asked []).2.engine refusing.worker slamming ∧
    (engaged (Link.soloHost refusing) asked []).2.engine.isRunning = true ∧
    (finished (Link.soloHost refusing) asked []).2.engine.child.isSome = false ∧
    (finished (Link.soloHost refusing) asked []).2.engine.gone = some ⟨"/python3", true, true⟩ ∧
    (execute ((Link.soloHost refusing).working fun _ => slamming) []
        ["--python", "/python3", "show-imports", "os"]).stderr =
      (execute (Link.soloHost refusing) [] ["--python", "/python3", "show-imports", "os"]).stderr := by
  obtain ⟨hpipes, hchild, hid⟩ := refusing_engaged
  have hrun := Link.running_of_pipes hpipes
  have hi : read (Link.soloHost refusing) ["--python", "/python3", "show-imports", "os"] =
    .ok asked := rfl
  have hu : refusing.worker.unread = [Link.greetingLine, refusalLine] ++
      (engaged (Link.soloHost refusing) asked []).2.engine.unread := by
    rw [Link.unread_of_pipes hpipes]
    rfl
  have hd : DiffersAfter (engaged (Link.soloHost refusing) asked []).2.engine refusing.worker
      slamming := by
    refine .later hrun hu rfl fun c hc => ?_
    obtain rfl := Option.some.inj hc
    exact Nat.le_of_eq hid
  obtain ⟨hends, hinert⟩ :=
    shutdown_inert (Link.soloHost refusing) [] ["--python", "/python3", "show-imports", "os"]
  obtain ⟨-, -, herr, -⟩ := hinert (fun _ => slamming) fun i hread l j hj => by
    obtain rfl := Except.ok.inj (hi.symm.trans hread)
    have hl : [((["python3"] : Location), refusing)].lookup l = some j := hj
    rw [List.lookup_cons] at hl
    split at hl
    · obtain rfl := Option.some.inj hl
      exact hd
    · cases hl
  obtain ⟨-, hgoes⟩ := hends asked hi
  -- It has no more to say, so that it is lost over the last request.
  have hgone := hgoes.ended _ _ hpipes hchild
  exact ⟨hi, hd, hrun, by rw [hgoes.gone.1]; rfl, hgone, herr⟩

end

end Relocate.CommandLine
