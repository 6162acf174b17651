import Relocate.Proofs.CommandLine.Upshot

namespace Relocate.CommandLine

open Relocate.Action Session Worker
open Utf8 (Bytes)

def reach (h : Host) (i : Invocation) : Act (Settings × Interpreter.Found × Bytes) := do
  let settings ← (Settings.ofProject h i.project).mapError (Settings.Error.failure h.wording)
  let arrived ← arrive h ⟨i.python, settings.interpreterIn i.project⟩
    ⟨i.project, settings.effectiveFolder i.libraryFolder⟩
  return (settings, arrived)

theorem perform_reach (h : Host) (i : Invocation) :
    perform h i = reach h i >>= fun a =>
      converse h i.request a.1 (a.1.effectiveFolder i.libraryFolder) a.2 := by
  have hs (settings : Settings) (c : Interpreter.Choice) (p : Project) :
      (start h c p >>= fun session =>
        attended h (dispatch (.ofRun h session) settings i.request)) =
        arrive h c p >>= converse h i.request settings p.libraryFolder :=
    serve_eq h i.request settings c p
  rw [reach]
  simp only [bind_assoc, pure_bind]
  exact bind_congr fun settings => hs settings _ _

theorem reach_ready {h : Host} {i : Invocation} {input : List Line} {room : Option Nat}
    {questions : Option (Nat × SystemError)} {a : Settings × Interpreter.Found × Bytes} {r : Run Link}
    (hr : exec (reach h i) (fresh input room questions) = (.ok a, r)) :
    printed r.journal = "" ∧ ∃ program r₀, (∀ e ∈ r₀.journal, e.sparesWorker = true) ∧
      Link.Started h a.2.1.path program r₀ r := by
  have hsilent : Silent (reach h i) := by
    refine .bind (.mapError (ofProject_silent h i.project) _) fun settings => ?_
    exact .bind (arrive_silent h _ _) fun _ => .pure _
  have hp := printed_silent hsilent (fresh input room questions)
  rw [hr] at hp
  refine ⟨hp, ?_⟩
  have ht := ofProject_told h i.project (fresh input room questions)
  have hm := exec_mapError (Settings.Error.failure h.wording) (Settings.ofProject h i.project)
    (fresh input room questions)
  rcases hs : exec (Settings.ofProject h i.project) (fresh input room questions) with ⟨res, r₁⟩
  rw [hs] at ht hm
  cases res with
  | error e =>
    rw [reach, exec_bind_of_error hm] at hr
    cases hr
  | ok settings =>
    rw [reach, exec_bind_of_ok hm] at hr
    have hi : r₁.engine.isRunning = false := by rw [ht.engine]; rfl
    have ha := arrive_arrival h ⟨i.python, settings.interpreterIn i.project⟩
      ⟨i.project, settings.effectiveFolder i.libraryFolder⟩ hi
    rcases he : exec (arrive h ⟨i.python, settings.interpreterIn i.project⟩
      ⟨i.project, settings.effectiveFolder i.libraryFolder⟩) r₁ with ⟨res, r'⟩
    rw [he] at ha
    cases ha with
    | failed hx ha =>
      rw [exec_bind_of_error he] at hr
      cases hr
    | @arrived found root program r₀ _ hx hs =>
      rw [exec_bind_of_ok he] at hr
      obtain ⟨rfl, rfl⟩ : (settings, found, root) = a ∧ r' = r := by simpa using hr
      refine ⟨program, r₀, hx.forall_journal fun e hm => ?_, hs⟩
      exact Event.spares_of_told (ht.forall_journal (List.forall_mem_nil _) e hm)

theorem converse_upshot (h : Host) (q : Request) (settings : Settings) (folder : Option String)
    (root : Bytes) {found : Interpreter.Found} {program : Host.Running} {r r₁ : Run Link}
    (hj : ∀ e ∈ r.journal, e.sparesWorker = true) (hs : Link.Started h found.path program r r₁)
    (hn : printed r₁.journal = "") :
    ∃ xs bye,
      Conversation h q (exec (converse h q settings folder (found, root)) r₁).2.journal xs bye ∧
        (∃ r₂, Talk r₁ r₂ xs) ∧ xs ≠ [] ∧
        Upshot q.progress xs (exec (converse h q settings folder (found, root)) r₁).1
          (printed (exec (converse h q settings folder (found, root)) r₁).2.journal) := by
  have hintro {res r₂} (he : exec (introduce h folder (found, root)) r₁ = (res, r₂)) :
      printed r₂.journal = "" := by
    have hp := printed_silent (introduce_silent h folder (found, root)) r₁
    rwa [he, hn] at hp
  refine converse_conversation_of (P := fun end_ xs => (∃ r₂, Talk r₁ r₂ xs) ∧ xs ≠ [] ∧
    Upshot q.progress xs end_.1 (printed end_.2.journal)) h q settings folder hj hs ?_ ?_
  · intro e r' r₂ he ht hf
    refine ⟨⟨r₂, ht⟩, List.cons_ne_nil _ _, ?_⟩
    dsimp only
    rw [hintro he]
    exact .failed (List.nil_append _).symm (List.forall_mem_nil _) hf (.unsaid List.mem_cons_self)
  · intro reply r₂ he ht hr hd
    have hrun : r₂.engine.isRunning = true := by
      refine ht.running hs.running (List.forall_mem_singleton.mpr ?_)
      rw [hr]
      rfl
    obtain ⟨ys, text, hy, hdialogue, hp, hu⟩ := dispatch_upshot h root settings q hrun
    refine ⟨ys, hy, hdialogue, fun r₃ hc => ⟨⟨_, ht.trans hy⟩, List.cons_ne_nil _ _, ?_⟩⟩
    have hc' := printed_silent (close_silent h)
      (exec (dispatch (.ofRun h (ofWorker h root)) settings q) r₂).2
    rw [hc, hp, hintro he, String.empty_append] at hc'
    dsimp only at hc' ⊢
    rw [hc']
    exact hu.cons (not_fails_of_decodes hr hd)

/-- How a run with a worker ends, by the requests that it has made and the pipes that they went to:
`xs` says what was asked, `p` what the worker writes and when it closes its pipes. -/
structure Judged (q : Request) (p : Pipes) (xs : List Exchange) (o : Outcome) : Prop where
  heard : ∀ a x b, xs = a ++ x :: b → x.result = (p.past a).answered x.id x.line
  refused_iff : o.exit = 3 ↔ ∃ a x b reply, xs = a ++ x :: b ∧ Refused (p.past a) x reply
  refused : ∀ a x b reply, xs = a ++ x :: b → Refused (p.past a) x reply →
    b = [] ∧ Preface q.progress a x o.stdout ∧
      o.stderr = "error: " ++ reply.code.getD "" ++ ": " ++ reply.message.getD "" ++ "\n" ++
        reply.traceback.elim "" fun t => Text.endTrimmed t ++ "\n"
  spoiled : ∀ a x b, xs = a ++ x :: b → Spoiled (p.past a) x →
    b = [] ∧ Preface q.progress a x o.stdout ∧ o.exit = 10
  environment : o.exit ≠ 4
  /-- If the worker does what it is asked for, nothing but the user or the files can be at fault. -/
  served : (∀ a x b, xs = a ++ x :: b →
      (∀ reply, ¬ Refused (p.past a) x reply) ∧ ¬ Spoiled (p.past a) x) →
    o.exit = 0 ∨ ∃ e : Failure, e.IsLocal ∧ o.exit = e.status.code ∧
      (e.isGuard = false → o.stderr = complaint e)

theorem complaint_refusal (reply : Reply) :
    complaint (refusal reply) = "error: " ++ reply.code.getD "" ++ ": " ++ reply.message.getD "" ++
      "\n" ++ reply.traceback.elim "" fun t => Text.endTrimmed t ++ "\n" := by
  have hm : (refusal reply).message = reply.code.getD "" ++ ": " ++ reply.message.getD "" := rfl
  have ht : (refusal reply).traceback? = reply.traceback := rfl
  rw [complaint, hm, ht]
  simp only [String.append_assoc]

section

variable {f : Log.Filter} {journal : List Event} {e : Failure}

theorem exit_ended (e : Failure) (f : Log.Filter) (journal : List Event) :
    (ended (.error e) f journal).exit = e.status.code := by
  cases hg : e.isGuard <;> simp [ended, hg]

theorem journal_ended (res : Except Failure Unit) (f : Log.Filter) (journal : List Event) :
    (ended res f journal).journal = journal := by
  cases res with
  | ok u => rfl
  | error e => cases hg : e.isGuard <;> simp [ended, hg]

theorem ended_error (hn : e.isGuard = false) : ended (.error e) f journal =
    ⟨e.status.code, printed journal, complaint e, shown f journal, journal⟩ := by
  simp [ended, hn]

end

theorem last_of_fails {a b c : List Exchange} {x y : Exchange} {e : Failure}
    (ha : ∀ z ∈ a, ∀ e, ¬ Fails z e) (hy : Fails y e) (h : a ++ [x] = b ++ y :: c) :
    a = b ∧ x = y ∧ c = [] := by
  obtain rfl | ⟨c, z, rfl⟩ := c.eq_nil_or_concat
  · obtain ⟨hab, hxy⟩ := List.append_inj' h rfl
    exact ⟨hab, (List.cons.inj hxy).1, rfl⟩
  · rw [List.concat_eq_append, ← List.cons_append, ← List.append_assoc] at h
    obtain ⟨hab, -⟩ := List.append_inj' h rfl
    exact absurd hy (ha y (by simp [hab]) e)

section

variable {q : Request} {p : Pipes} {xs : List Exchange} {res : Except Failure Unit} {f : Log.Filter}
  {journal : List Event}

theorem judged_of_served (hx : ∀ a x b, xs = a ++ x :: b → x.result = (p.past a).answered x.id x.line)
    (hn : ∀ x ∈ xs, ∀ e, ¬ Fails x e) (hl : ∀ e, res = .error e → e.IsLocal) :
    Judged q p xs (ended res f journal) := by
  have hno {a b : List Exchange} {x : Exchange} (hxs : xs = a ++ x :: b) :
      (∀ reply, ¬ Refused (p.past a) x reply) ∧ ¬ Spoiled (p.past a) x := by
    have hm : x ∈ xs := by simp [hxs]
    refine ⟨fun reply hr => ?_, fun hs => ?_⟩
    · exact hn x hm _ ((hr.fails_iff (hx a x b hxs)).mpr rfl)
    · obtain ⟨⟨e, hf⟩, -⟩ := hs.fails (hx a x b hxs)
      exact hn x hm e hf
  have hexit : (ended res f journal).exit ≠ 3 ∧ (ended res f journal).exit ≠ 4 := by
    cases res with
    | ok u => exact ⟨nofun, nofun⟩
    | error e =>
      rw [exit_ended]
      exact (hl e rfl).code_ne
  exact {
    heard := hx
    refused_iff := iff_of_false hexit.1 fun ⟨a, x, b, reply, hxs, hr⟩ => (hno hxs).1 reply hr
    refused a x b reply hxs hr := absurd hr ((hno hxs).1 reply)
    spoiled a x b hxs hs := absurd hs (hno hxs).2
    environment := hexit.2
    served _ := by
      cases res with
      | ok u => exact .inl rfl
      | error e =>
        refine .inr ⟨e, hl e rfl, exit_ended e f journal, fun hg => ?_⟩
        rw [ended_error hg] }

theorem judged_of_failed {a : List Exchange} {x : Exchange} {e : Failure}
    (hx : ∀ b y c, a ++ [x] = b ++ y :: c → y.result = (p.past b).answered y.id y.line)
    (ha : ∀ y ∈ a, ∀ e, ¬ Fails y e) (hf : Fails x e) (ht : Preface q.progress a x (printed journal)) :
    Judged q p (a ++ [x]) (ended (.error e) f journal) := by
  have hr := hx a x [] rfl
  have hrefused {b c : List Exchange} {y : Exchange} {reply : Reply} (hxs : a ++ [x] = b ++ y :: c)
      (hy : Refused (p.past b) y reply) : a = b ∧ x = y ∧ c = [] ∧ e = refusal reply := by
    have hfy : Fails y (refusal reply) := (hy.fails_iff (hx b y c hxs)).mpr rfl
    obtain ⟨rfl, rfl, rfl⟩ := last_of_fails ha hfy hxs
    exact ⟨rfl, rfl, rfl, (hy.fails_iff hr).mp hf⟩
  have hspoiled {b c : List Exchange} {y : Exchange} (hxs : a ++ [x] = b ++ y :: c)
      (hy : Spoiled (p.past b) y) : a = b ∧ x = y ∧ c = [] ∧ ∃ message, e = .internal message := by
    obtain ⟨⟨e', hfy⟩, -⟩ := hy.fails (hx b y c hxs)
    obtain ⟨rfl, rfl, rfl⟩ := last_of_fails ha hfy hxs
    exact ⟨rfl, rfl, rfl, (hy.fails hr).2 e hf⟩
  exact {
    heard := hx
    refused_iff := by
      rw [exit_ended]
      constructor
      · intro hc
        obtain ⟨reply, hy, -⟩ | ⟨-, message, rfl⟩ := hf.cases_of hr
        · exact ⟨a, x, [], reply, rfl, hy⟩
        · cases hc
      · rintro ⟨b, y, c, reply, hxs, hy⟩
        obtain ⟨-, -, -, rfl⟩ := hrefused hxs hy
        rfl
    refused b y c reply hxs hy := by
      obtain ⟨rfl, rfl, rfl, rfl⟩ := hrefused hxs hy
      rw [ended_error rfl]
      exact ⟨rfl, ht, complaint_refusal reply⟩
    spoiled b y c hxs hy := by
      obtain ⟨rfl, rfl, rfl, message, rfl⟩ := hspoiled hxs hy
      rw [ended_error rfl]
      exact ⟨rfl, ht, rfl⟩
    environment := by
      rw [exit_ended]
      obtain ⟨reply, -, rfl⟩ | ⟨-, message, rfl⟩ := hf.cases_of hr
      · simp [refusal, Failure.status, ExitStatus.code]
      · simp [Failure.status, ExitStatus.code]
    served hno := by
      obtain ⟨hno, hno'⟩ := hno a x [] rfl
      obtain ⟨reply, hy, -⟩ | ⟨hy, -⟩ := hf.cases_of hr
      · exact absurd hy (hno reply)
      · exact absurd hy hno' }

theorem judged_of_upshot
    (hx : ∀ a x b, xs = a ++ x :: b → x.result = (p.past a).answered x.id x.line)
    (hu : Upshot q.progress xs res (printed journal)) : Judged q p xs (ended res f journal) := by
  cases hu with
  | served hn hl => exact judged_of_served hx hn hl
  | failed hxs ha hf ht =>
    subst hxs
    exact judged_of_failed hx ha hf ht

end

theorem execute_eq {h : Host} {input : Utf8.Bytes} {words : List String} {i : Invocation}
    (hi : read h words = .ok i) : execute h input words =
      ended (exec (perform h i) (fresh (Line.ofStream input) none none)).1
        (.choose (h.environment? "RUST_LOG") i.level)
        (exec (perform h i) (fresh (Line.ofStream input) none none)).2.journal := by
  have hp : (perform h i).run.run ⟨[], Line.ofStream input, none, none, Link.closed⟩ =
      exec (perform h i) (fresh (Line.ofStream input) none none) := rfl
  rw [execute, hi]
  dsimp only
  rw [hp]

/-- How every run ends whose worker has greeted, whatever that writes and wherever it closes its
pipes. The exit status is that of the engine if and only if a request is refused by its own reply; a
reply that is cut off, garbled or of no use is an internal failure; and the environment is no longer
at fault. In both cases the request is the last one, and no more is printed than what comes before a
move. -/
theorem faults_judged {h : Host} {input : Utf8.Bytes} {words : List String} {i : Invocation}
    (hi : read h words = .ok i) {a : Settings × Interpreter.Found × Bytes} {r : Run Link}
    (hr : exec (reach h i) (fresh (Line.ofStream input) none none) = (.ok a, r)) :
    ∃ p xs bye, r.engine.pipes = some p ∧ xs ≠ [] ∧
      Conversation h i.request (execute h input words).journal xs bye ∧
      Judged i.request p xs (execute h input words) := by
  obtain ⟨hn, program, r₀, hj, hs⟩ := reach_ready hr
  obtain ⟨settings, found, root⟩ := a
  obtain ⟨p, hp⟩ := Link.pipes_of_running hs.running
  obtain ⟨xs, bye, hc, ⟨r₂, ht⟩, hxs, hu⟩ := converse_upshot h i.request settings
    (settings.effectiveFolder i.libraryFolder) root hj hs hn
  have hperform : exec (perform h i) (fresh (Line.ofStream input) none none) =
      exec (converse h i.request settings (settings.effectiveFolder i.libraryFolder) (found, root))
        r := by
    rw [perform_reach, exec_bind_of_ok hr]
  rw [execute_eq hi, hperform]
  refine ⟨p, xs, bye, hp, hxs, ?_, judged_of_upshot (ht.heard p hp) hu⟩
  rwa [journal_ended]

section

def refusalLine : Line := Utf8.encode
  "\x7b\"id\": 1, \"status\": \"error\", \"error_code\": \"NotAProject\", \"message\": \"no project\"\x7d\n"

theorem reply?_refusalLine :
    ∃ reply, reply? refusalLine = some reply ∧ reply.id = some 1 ∧ reply.status = "error" :=
  exists_reply (by decide +kernel)

def refusing : Interpreter :=
  ⟨⟨true, Utf8.encode "Python 3.11.4\n", []⟩, .empty,
    ⟨⟨[Link.greetingLine, refusalLine], none⟩, ⟨none⟩⟩, .empty⟩

theorem refusing_usable : Interpreter.Usable (Link.soloHost refusing) "/python3" ⟨3, 11, 4⟩ where
  present := Link.soloHost_exists refusing
  version := by
    refine ⟨refusing.version, ?_, rfl, by decide +kernel⟩
    rw [Interpreter.output?, Link.soloHost_start]
    rfl
  recent := by decide
  library := by
    refine ⟨.empty, ?_, rfl⟩
    rw [Interpreter.output?, Link.soloHost_start]
    rfl

theorem soloHost_settings (i : Interpreter) :
    (Link.soloHost i).exists? (Settings.file ".") = false := by
  have hs : Path.steps (Settings.file ".") = [.stay, .down ".ropify", .down "config.toml"] := by decide
  have hl : (Link.soloHost i).files.locate [] (Settings.file ".") = .error .noSuchEntry := by
    rw [FileSystem.locate_eq_walk (by decide) (by decide) (by decide), hs]
    exact (FileSystem.walk_stay_root _ _).trans (FileSystem.walk_missing rfl (by decide) rfl)
  have hf : (Link.soloHost i).folder = [] := rfl
  rw [Host.exists?, FileSystem.exists?, hf, hl]
  rfl

theorem soloHost_root (i : Interpreter) :
    canonicalRoot (Link.soloHost i) "." = .ok (Utf8.encode "/") := by
  have hs : Path.steps "." = [.stay] := by decide
  have hl : (Link.soloHost i).files.locate [] "." = .ok [] := by
    rw [FileSystem.locate_eq_walk (by decide) (by decide) (by decide), hs]
    exact (FileSystem.walk_stay_root _ _).trans (by rw [FileSystem.walk])
  have hc : (Link.soloHost i).files.canonicalized [] "." = .ok [] := by
    rw [FileSystem.canonicalized, hl]
    exact FileSystem.locate_canonical .root (by decide) (by decide) []
  have hf : (Link.soloHost i).folder = [] := rfl
  have ht : Location.written [] = Utf8.encode "/" := by decide
  rw [canonicalRoot, hf, hc, ← ht]

def asked : Invocation := ⟨some "/python3", .warn, ".", none, .showImports "os"⟩

theorem refusing_found (r : Run Link) : ∃ found r', found.path = "/python3" ∧
    exec (Interpreter.discover (Link.soloHost refusing) ⟨some "/python3", none⟩) r =
      (.ok found, r') := by
  have hd : exec (Interpreter.discover (Link.soloHost refusing) ⟨some "/python3", none⟩) r = _ :=
    exec_mapError _ (Interpreter.validate (Link.soloHost refusing) .flag "/python3") r
  obtain ⟨found, hv, hs⟩ | ⟨hv, -⟩ :=
    Interpreter.validate_selects (Link.soloHost refusing) .flag "/python3" r
  · rw [hv] at hd
    exact ⟨found, _, hs.path_eq, hd⟩
  · exact absurd refusing_usable (hv _)

theorem refusing_reach (input : List Line) : ∃ a r,
    exec (reach (Link.soloHost refusing) asked) (fresh input none none) = (.ok a, r) ∧
      r.engine.pipes = some ⟨⟨[refusalLine], none⟩, ⟨none⟩⟩ ∧
      r.engine.child = some (.spawned "/python3") := by
  have hsettings : exec (Settings.ofProject (Link.soloHost refusing) ".") (fresh input none none) =
      (.ok .default, fresh input none none) := by
    rw [Settings.ofProject, soloHost_settings]
    rfl
  have hm := exec_mapError (Settings.Error.failure (Link.soloHost refusing).wording)
    (Settings.ofProject (Link.soloHost refusing) ".") (fresh input none none)
  rw [hsettings] at hm
  obtain ⟨found, r₁, hpath, hd⟩ := refusing_found (fresh input none none)
  have hd' := exec_mapError Interpreter.Error.failure
    (Interpreter.discover (Link.soloHost refusing) ⟨some "/python3", none⟩) (fresh input none none)
  rw [hd] at hd'
  obtain ⟨r, hs, -, hk⟩ := Link.exec_start_spawned r₁ (Link.soloHost_finds refusing)
  have hw : welcome (Link.workerOf ⟨["python3"], refusing, none⟩).fault
      (Link.workerOf ⟨["python3"], refusing, none⟩).unread =
      ([Link.greetingLine], .ok ⟨"ready", "1.0", "1.13"⟩) :=
    decided_of_some Link.tidings?_greetingLine _ _
  rw [hw] at hs hk
  have hs' := exec_viaWorker (Link.soloHost refusing).wording
    (Link.start (Link.soloHost refusing) "/python3") r₁
  rw [hs] at hs'
  refine ⟨(.default, found, Utf8.encode "/"), r, ?_, by rw [hk]; rfl, by rw [hk]; rfl⟩
  have harrive : exec (arrive (Link.soloHost refusing) ⟨some "/python3", none⟩ ⟨".", none⟩)
      (fresh input none none) = (.ok (found, Utf8.encode "/"), r) := by
    rw [arrive, exec_bind_of_ok hd', soloHost_root, liftM_ok, pure_bind, hpath]
    exact exec_bind_of_ok hs'
  rw [reach, asked, exec_bind_of_ok hm]
  exact exec_bind_of_ok harrive

theorem refusing_judged :
    read (Link.soloHost refusing) ["--python", "/python3", "show-imports", "os"] = .ok asked ∧
    (∃ a r, exec (reach (Link.soloHost refusing) asked) (fresh (Line.ofStream []) none none) =
      (.ok a, r)) ∧
    (execute (Link.soloHost refusing) [] ["--python", "/python3", "show-imports", "os"]).exit = 3 := by
  obtain ⟨a, r, hr, hq, -⟩ := refusing_reach (Line.ofStream [])
  have hi : read (Link.soloHost refusing) ["--python", "/python3", "show-imports", "os"] =
    .ok asked := rfl
  refine ⟨hi, ⟨a, r, hr⟩, ?_⟩
  obtain ⟨p, xs, bye, hp, hn, hc, hj⟩ := faults_judged hi hr
  obtain rfl := Option.some.inj (hq.symm.trans hp)
  obtain ⟨x, b, rfl⟩ := List.exists_cons_of_ne_nil hn
  obtain ⟨reply, hl, hid, hst⟩ := reply?_refusalLine
  have hx : x.id = 1 := (List.cons.inj hc.numbers).1
  refine hj.refused_iff.mpr ⟨[], x, b, reply, rfl, rfl, ?_, hst⟩
  exact ⟨[], refusalLine, [], rfl, List.forall_mem_nil _, hl, by rw [hx, hid]⟩

end

end Relocate.CommandLine
