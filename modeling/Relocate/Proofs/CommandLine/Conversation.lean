import Relocate.CommandLine.Execute
import Relocate.Proofs.Command.Listing
import Relocate.Proofs.Session.Opening

namespace Relocate

open Relocate.Action Session Worker
open Utf8 (Bytes textLossy)

/-- What a run says to a worker for a command, and nothing else that concerns it. -/
def Converses (script : List String) (confirms : Prop) (a : Action (Run Link) Failure Unit) :
    Prop :=
  ∀ r, ∃ xs, Talk r (exec a r).2 xs ∧ Dialogue script confirms xs

namespace Command

variable (h : Host) (root : Bytes)

theorem Rules.converses (k : Rules) :
    Converses k.script (k.doubt ≠ none) (k.run (.ofRun h (ofWorker h root))) := by
  intro r
  obtain ⟨ds, st, ht, hc, -⟩ := k.run_course (.ofRun h (ofWorker h root)) r
  obtain ⟨xs, hx, hv, -⟩ := trace_voiced ht
  exact ⟨xs, hx, hc.dialogue hv⟩

theorem report_told (pieces : List String) :
    Action.Extends Event.isTold (Surroundings.report (.ofRun h (ofWorker h root)) pieces) :=
  .forM (fun text => .mapError (write_told text) _) pieces

namespace ShowImports

theorem offer_told (c : ShowImports) (candidates : List String) :
    Action.Extends Event.isTold (c.offer (.ofRun h (ofWorker h root)) candidates) := by
  refine .bind (.forM (fun m => .record rfl) _) fun _ => ?_
  refine .bind (.record rfl) fun _ => .ite .refl ?_
  exact .forM (fun m => report_told h root [Imports.statement m c.name, "\n"]) _

theorem converses (c : ShowImports) :
    Converses ["import_candidates"] False (c.run (.ofRun h (ofWorker h root))) := by
  intro r
  rcases hl : exec ((ofWorker h root).importCandidates c.name) r with ⟨res, r₁⟩
  have hd : Deed.Carried (.ofRun h (ofWorker h root)) r (.list c.name res) r₁ := hl
  have hs : exec ((Surroundings.ofRun h (ofWorker h root)).session.importCandidates c.name) r = _ := hl
  obtain ⟨xs, hx, hv, -⟩ := carried_voiced hd
  rw [run_eq]
  cases res with
  | error e =>
    rw [exec_bind_of_error hs]
    exact ⟨xs, hx, dialogue_list hv⟩
  | ok candidates =>
    rw [exec_bind_of_ok hs]
    exact ⟨xs, hx.before_told (offer_told h root c candidates r₁), dialogue_list hv⟩

end ShowImports

end Command

namespace CommandLine

def Request.script : Request → List String
  | .move _ => ["open_project", "create_move", "is_python_file", "get_changes", "apply_changes"]
  | .moveModule _ => ["open_project", "create_move", "get_changes", "apply_changes"]
  | .showImports _ => ["open_project", "import_candidates"]

def Request.confirms : Request → Prop
  | .move _ => True
  | _ => False

theorem dispatch_converses (h : Host) (root : Bytes) (settings : Settings) (q : Request) :
    Converses q.script.tail q.confirms (dispatch (.ofRun h (ofWorker h root)) settings q) := by
  intro r
  cases q with
  | move m =>
    obtain ⟨xs, hx, hd⟩ := (m.rules (.ofRun h (ofWorker h root))).converses h root r
    rw [← m.run_eq] at hx
    exact ⟨xs, hx, hd.imp nofun⟩
  | moveModule m =>
    obtain ⟨xs, hx, hd⟩ := (m.rules (.ofRun h (ofWorker h root))).converses h root r
    rw [← m.run_eq] at hx
    exact ⟨xs, hx, hd.imp False.elim⟩
  | showImports name => exact Command.ShowImports.converses h root _ r

/-- All that a run says to a worker: what the command needs, and at most one word to let it go. -/
structure Conversation (h : Host) (q : Request) (journal : List Event) (xs bye : List Exchange) :
    Prop where
  sent : sentBytes journal = (xs ++ bye).flatMap Exchange.written
  written : ∀ x ∈ xs ++ bye, x.written <+: x.line
  /-- Only the last request may be cut short. -/
  whole : ∀ a x b, xs ++ bye = a ++ x :: b → b ≠ [] → x.written = x.line
  numbers : (xs ++ bye).map Exchange.id = List.range' 1 (xs ++ bye).length
  plain : ∀ x ∈ xs ++ bye, x.IsPlain
  dialogue : Dialogue q.script q.confirms xs
  farewell : bye.map Exchange.operation <+: ["shutdown"]
  /-- One worker is started, and what is read for the requests is what it writes, in order. -/
  worker : xs ++ bye ≠ [] → ∃ path program greeting rest, h.start path = .ok program ∧
    journal.filter Event.startsWorker =
      [.launched path .worker (some (program.file, program.task? .worker))] ∧
    (program.interpreter.doing (program.task? .worker)).worker.unread =
      greeting ++ (xs ++ bye).flatMap Exchange.taken ++ rest

namespace Conversation

variable {h : Host} {q : Request}

theorem nil {journal : List Event} (hj : sentBytes journal = []) :
    Conversation h q journal [] [] where
  sent := hj
  written := List.forall_mem_nil _
  whole a x b hx := by simp at hx
  numbers := rfl
  plain := List.forall_mem_nil _
  dialogue := .nil
  farewell := List.nil_prefix
  worker hn := absurd rfl hn

theorem of_talk {path : String} {program : Host.Running} {r r₁ r₂ r' : Run Link}
    {xs bye : List Exchange} (hj : ∀ e ∈ r.journal, e.sparesWorker = true)
    (hs : Link.Started h path program r r₁) (ht : Talk r₁ r₂ xs)
    (hd : Dialogue q.script q.confirms xs) (hc : Closes r₂ r' bye) :
    Conversation h q r'.journal xs bye := by
  obtain ⟨r₃, hb, hl⟩ := hc.talk
  have ha := ht.trans hb
  obtain ⟨entries, hj₁⟩ := hs.journal
  obtain ⟨es, hj₃, hes⟩ := ha.journal
  obtain ⟨entries', hj'⟩ := hl.journal
  refine {
    sent := ?_
    written := ha.written
    whole a x b hx hn := ha.whole a x b hx (.inl hn)
    numbers := by rw [ha.ids, hs.nextId]
    plain x hx := (List.mem_append.mp hx).elim (hd.plain x) (hc.plain x)
    dialogue := hd
    farewell := hc.operations
    worker _ := ?_ }
  · rw [hl.sentBytes, hj₃, sentBytes_append, hes.sent, hj₁, sentBytes_append, sentBytes_spared hj]
    exact congrArg (· ++ _) (sentBytes_logged entries)
  · obtain ⟨greeting, hg⟩ := hs.greeted
    refine ⟨path, program, greeting, r₃.engine.unread, hs.found, ?_, ?_⟩
    · rw [hj', hj₃, hj₁, List.filter_append, List.filter_append, List.filter_append,
        filter_startsWorker fun e hm => Event.no_start_of_spares (hj e hm),
        filter_startsWorker fun e hm => Event.no_start_of_no_launch (hes.calm e hm),
        List.filter_cons_of_pos rfl, startsWorker_logged, startsWorker_logged]
      rfl
    · rw [hg, ha.lines, List.append_assoc]

end Conversation

def fresh (input : List Line) (room : Option Nat) (questions : Option (Nat × SystemError)) :
    Run Link :=
  ⟨[], input, room, questions, Link.closed⟩

theorem ofProject_told (h : Host) (project : String) :
    Action.Extends Event.isTold
      (Settings.ofProject h project : Action (Run Link) Settings.Error Settings) :=
  .ite (.bind (.record rfl) fun _ => .liftM _) (.pure _)

theorem Request.script_cons (q : Request) : q.script = "open_project" :: q.script.tail := by
  cases q <;> rfl

def attended (h : Host) (a : Action (Run Link) Failure Unit) : Action (Run Link) Failure Unit := do
  let result ← a.attempt
  close h
  result

def serve (h : Host) (q : Request) (settings : Settings) (c : Interpreter.Choice) (p : Project) :
    Action (Run Link) Failure Unit := do
  let session ← start h c p
  attended h (dispatch (.ofRun h session) settings q)

theorem exec_attended (h : Host) (a : Action (Run Link) Failure Unit) {r r' : Run Link}
    (hc : exec (close h) (exec a r).2 = (.ok (), r')) : exec (attended h a) r = ((exec a r).1, r') := by
  have hb : exec (a.attempt : Act _) r = _ := exec_attempt a r
  rw [attended, exec_bind_of_ok hb, exec_bind_of_ok hc]
  rfl

def converse (h : Host) (q : Request) (settings : Settings) (folder : Option String)
    (a : Interpreter.Found × Bytes) : Action (Run Link) Failure Unit := do
  let session ← introduce h folder a
  attended h (dispatch (.ofRun h session) settings q)

theorem serve_eq (h : Host) (q : Request) (settings : Settings) (c : Interpreter.Choice)
    (p : Project) :
    serve h q settings c p = arrive h c p >>= converse h q settings p.libraryFolder := by
  rw [serve, start_eq, bind_assoc]
  rfl

/-- What a run says to a worker that has greeted, and whatever else follows from how the opening and
the command itself go. -/
theorem converse_conversation_of (h : Host) (q : Request) (settings : Settings)
    (folder : Option String) {found : Interpreter.Found} {root : Bytes} {program : Host.Running}
    {r r₁ : Run Link} (hj : ∀ e ∈ r.journal, e.sparesWorker = true)
    (hs : Link.Started h found.path program r r₁)
    {P : Except Failure Unit × Run Link → List Exchange → Prop}
    (hrefused : ∀ e r' r₂, exec (introduce h folder (found, root)) r₁ = (.error e, r') →
      Talk r₁ r₂ [opening (textLossy root) folder r₁] → Fails (opening (textLossy root) folder r₁) e →
        P (.error e, r') [opening (textLossy root) folder r₁])
    (hopened : ∀ reply r₂, exec (introduce h folder (found, root)) r₁ = (.ok (ofWorker h root), r₂) →
      Talk r₁ r₂ [opening (textLossy root) folder r₁] →
      (opening (textLossy root) folder r₁).result = .ok reply →
      Decodes "open_project" reply.data → ∃ ys,
        Talk r₂ (exec (dispatch (.ofRun h (ofWorker h root)) settings q) r₂).2 ys ∧
        Dialogue q.script.tail q.confirms ys ∧ ∀ r₃,
          exec (close h) (exec (dispatch (.ofRun h (ofWorker h root)) settings q) r₂).2 = (.ok (), r₃) →
            P ((exec (dispatch (.ofRun h (ofWorker h root)) settings q) r₂).1, r₃)
              (opening (textLossy root) folder r₁ :: ys)) :
    ∃ xs bye,
      Conversation h q (exec (converse h q settings folder (found, root)) r₁).2.journal xs bye ∧
        P (exec (converse h q settings folder (found, root)) r₁) xs := by
  have ha := introduce_admission h folder found root hs.running
  rcases he : exec (introduce h folder (found, root)) r₁ with ⟨res, r₂⟩
  rw [he] at ha
  cases ha with
  | @refused e r₃ _ bye ht hf hc =>
    rw [converse, exec_bind_of_error he]
    have hd : Dialogue q.script q.confirms [opening (textLossy root) folder r₁] := by
      rw [q.script_cons]
      exact Dialogue.nil.cons (opening_plain (textLossy root) folder r₁) rfl fun hn => absurd rfl hn
    exact ⟨_, bye, .of_talk hj hs ht hd hc, hrefused e r₂ r₃ he ht hf⟩
  | @admitted reply _ ht hr ha hd =>
    obtain ⟨ys, hy, hd', hp⟩ := hopened reply r₂ he ht hr hd
    obtain ⟨r₃, bye, hc, hcl⟩ :=
      exec_close h (exec (dispatch (.ofRun h (ofWorker h root)) settings q) r₂).2
    rw [converse, exec_bind_of_ok he, exec_attended h _ hc]
    have hw : Dialogue q.script q.confirms (opening (textLossy root) folder r₁ :: ys) := by
      rw [q.script_cons]
      exact hd'.cons (opening_plain (textLossy root) folder r₁) rfl fun _ => ⟨reply, ha, hd⟩
    exact ⟨_, bye, .of_talk hj hs (ht.trans hy) hw hcl, hp r₃ hc⟩

theorem serve_conversation_of (h : Host) (q : Request) (settings : Settings)
    (c : Interpreter.Choice) (p : Project) {r : Run Link}
    (hj : ∀ e ∈ r.journal, e.sparesWorker = true) (hr : r.engine.isRunning = false)
    {P : Except Failure Unit × Run Link → List Exchange → Prop}
    (hfailed : ∀ e r', exec (start h c p) r = (.error e, r') → ∀ xs, P (.error e, r') xs)
    (hopened : ∀ root r₁, exec (start h c p) r = (.ok (ofWorker h root), r₁) → ∃ ys,
      Talk r₁ (exec (dispatch (.ofRun h (ofWorker h root)) settings q) r₁).2 ys ∧
      Dialogue q.script.tail q.confirms ys ∧ ∀ x r₂,
        exec (close h) (exec (dispatch (.ofRun h (ofWorker h root)) settings q) r₁).2 = (.ok (), r₂) →
          P ((exec (dispatch (.ofRun h (ofWorker h root)) settings q) r₁).1, r₂) (x :: ys)) :
    ∃ xs bye, Conversation h q (exec (serve h q settings c p) r).2.journal xs bye ∧
      P (exec (serve h q settings c p) r) xs := by
  have ha := arrive_arrival h c p hr
  rw [serve_eq]
  rw [start_eq] at hfailed hopened
  rcases he : exec (arrive h c p) r with ⟨res, r'⟩
  rw [he] at ha
  cases ha with
  | @failed e r₁ _ hx ha =>
    rw [exec_bind_of_error he] at hfailed ⊢
    obtain ⟨es, hj', hes⟩ := ha.journal
    refine ⟨[], [], .nil ?_, hfailed e r' rfl []⟩
    rw [hj', sentBytes_append, hes, sentBytes_spared (hx.forall_journal hj)]
    rfl
  | @arrived found root program r₁ _ hx hs =>
    rw [exec_bind_of_ok he] at hfailed hopened ⊢
    refine converse_conversation_of h q settings p.libraryFolder (hx.forall_journal hj) hs ?_ ?_
    · exact fun e r₂ _ ha _ _ => hfailed e r₂ ha _
    · intro reply r₂ ha _ _ _
      obtain ⟨ys, hy, hd, hp⟩ := hopened root r₂ ha
      exact ⟨ys, hy, hd, hp _⟩

theorem serve_conversation (h : Host) (q : Request) (settings : Settings) (c : Interpreter.Choice)
    (p : Project) {r : Run Link} (hj : ∀ e ∈ r.journal, e.sparesWorker = true)
    (hr : r.engine.isRunning = false) :
    ∃ xs bye, Conversation h q (exec (serve h q settings c p) r).2.journal xs bye := by
  have hs := serve_conversation_of (P := fun _ _ => True) h q settings c p hj hr
    (fun _ _ _ _ => trivial) fun root r₁ _ => by
      obtain ⟨ys, hy, hd⟩ := dispatch_converses h root settings q r₁
      exact ⟨ys, hy, hd, fun _ _ _ => trivial⟩
  obtain ⟨xs, bye, hc, -⟩ := hs
  exact ⟨xs, bye, hc⟩

section

variable {h : Host} {i : Invocation} {r r₁ : Run Link}

theorem exec_perform_error {e : Settings.Error}
    (hs : exec (Settings.ofProject h i.project) r = (.error e, r₁)) :
    exec (perform h i) r = (.error (e.failure h.wording), r₁) := by
  have hm := exec_mapError (Settings.Error.failure h.wording) (Settings.ofProject h i.project) r
  rw [hs] at hm
  rw [perform, exec_bind_of_error hm]

theorem exec_perform_ok {settings : Settings}
    (hs : exec (Settings.ofProject h i.project) r = (.ok settings, r₁)) :
    exec (perform h i) r = exec (serve h i.request settings
      ⟨i.python, settings.interpreterIn i.project⟩
      ⟨i.project, settings.effectiveFolder i.libraryFolder⟩) r₁ := by
  have hm := exec_mapError (Settings.Error.failure h.wording) (Settings.ofProject h i.project) r
  rw [hs] at hm
  rw [perform, exec_bind_of_ok hm]
  rfl

end

/-- Whatever the files, the environment, the input and the bytes that the worker writes: the requests
of a run are numbered from one on and go through the script of the command, each after the one
before was granted and with what the replies say, and at most one word lets the worker go. Settings
that cannot be read start no interpreter, and without an interpreter or a root no worker is started. -/
theorem perform_conversation (h : Host) (i : Invocation) (input : List Line) (room : Option Nat)
    (questions : Option (Nat × SystemError)) :
    (∃ xs bye,
        Conversation h i.request (exec (perform h i) (fresh input room questions)).2.journal xs bye) ∧
      (∀ e, (exec (Settings.ofProject h i.project) (fresh input room questions)).1 = .error e →
        ∀ event ∈ (exec (perform h i) (fresh input room questions)).2.journal, event.isLaunch = false) ∧
      ∀ settings run,
        exec (Settings.ofProject h i.project) (fresh input room questions) = (.ok settings, run) →
        (∃ e, (exec (Interpreter.discover h ⟨i.python, settings.interpreterIn i.project⟩) run).1 =
            .error e) ∨ (∃ e, canonicalRoot h i.project = .error e) →
        ∀ event ∈ (exec (perform h i) (fresh input room questions)).2.journal,
          event.startsWorker = false := by
  have ht := ofProject_told h i.project (fresh input room questions)
  have hj : ∀ e ∈ (fresh input room questions).journal, e.isTold = true := List.forall_mem_nil _
  rcases hs : exec (Settings.ofProject h i.project) (fresh input room questions) with ⟨res, r₁⟩
  rw [hs] at ht
  have hj₁ := ht.forall_journal hj
  cases res with
  | error e =>
    rw [exec_perform_error hs]
    refine ⟨⟨[], [], .nil (sentBytes_spared fun e hm => Event.spares_of_told (hj₁ e hm))⟩, ?_, ?_⟩
    · exact fun _ _ event hm => Event.no_launch_of_told (hj₁ event hm)
    · intro settings run hok
      cases hok
  | ok settings =>
    have hsp : ∀ e ∈ r₁.journal, e.sparesWorker = true :=
      fun e hm => Event.spares_of_told (hj₁ e hm)
    rw [exec_perform_ok hs]
    refine ⟨serve_conversation h i.request settings _ _ hsp (by rw [ht.engine]; rfl), ?_, ?_⟩
    · intro e he
      cases he
    · intro settings' run hok hm event hev
      obtain ⟨rfl, rfl⟩ : settings = settings' ∧ r₁ = run := by simpa using hok
      obtain ⟨e, r', he, hx⟩ :=
        exec_start_missing (p := ⟨i.project, settings.effectiveFolder i.libraryFolder⟩) hm
      rw [serve, exec_bind_of_error he] at hev
      exact Event.no_start_of_spares (hx.forall_journal hsp event hev)

end CommandLine

end Relocate
