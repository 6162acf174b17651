import Relocate.Proofs.Interpreter.Selection
import Relocate.Proofs.Session.Carried
import Relocate.Proofs.Session.Dialogue
import Relocate.Proofs.Worker.Start

namespace Relocate

open Relocate.Action

theorem Interpreter.discover_spares {σ : Type} (h : Host) (c : Choice) :
    Action.Extends Event.sparesWorker (discover h c : Action (Run σ) Error Found) := by
  refine discover_extends (fun _ => rfl) (fun path task result ht => ?_) h c
  cases task <;> first | rfl | exact absurd rfl ht

namespace Session

open Worker
open Utf8 (Bytes textLossy)

/-- How a worker is let go: it is asked once more at most, and gone afterwards. -/
structure Closes (r r' : Run Link) (bye : List Exchange) : Prop where
  talk : ∃ r₁, Talk r r₁ bye ∧ r₁.Logged r'
  operations : bye.map Exchange.operation <+: ["shutdown"]
  plain : ∀ x ∈ bye, x.IsPlain

theorem exec_close (h : Host) (r : Run Link) :
    ∃ r' bye, exec (close h) r = (.ok (), r') ∧ Closes r r' bye := by
  cases hr : r.engine.isRunning with
  | false =>
    refine ⟨r, [], ?_, ⟨r, .refl r, .refl r⟩, List.nil_prefix, List.forall_mem_nil _⟩
    rw [close, exec_viaWorker, Link.shutdown, exec_bind_of_ok (exec_get r), hr]
    rfl
  | true =>
    have hx := Link.exchange_leads "shutdown" [] hr
    have hc := exec_viaWorker h.wording Link.shutdown r
    rw [Link.exec_shutdown_running hr] at hc
    refine ⟨_, [Link.exchange "shutdown" [] r], hc, ⟨_, .one hx hr, ?_⟩, List.prefix_rfl, ?_⟩
    · exact (Run.Logged.entry _ _).trans (.engine _ _)
    · exact List.forall_mem_singleton.mpr (Exchange.isPlain_of rfl rfl)

def opening (root : String) (folder : Option String) (r : Run Link) : Exchange :=
  Link.exchange "open_project"
    [("root", .string root), ("ropefolder", Json.optional Json.string folder)] r

theorem opening_plain (root : String) (folder : Option String) (r : Run Link) :
    (opening root folder r).IsPlain := by
  apply Exchange.isPlain_of
  · simp [opening, Link.exchange, Fields.get?_cons, Fields.get?_nil]
  · simp [opening, Link.exchange, Fields.get?_cons, Fields.get?_nil]

theorem exec_openProject (w : Wording) (root : String) (folder : Option String) {r : Run Link}
    (hr : r.engine.isRunning = true) :
    ∃ res r', exec (viaWorker w (Link.openProject root folder)) r = (res, r') ∧
      Talk r r' [opening root folder r] ∧
      (∀ reported, res = .ok reported → ∃ reply, (opening root folder r).result = .ok reply ∧
        (opening root folder r).Accepted reply ∧ Decodes "open_project" reply.data) ∧
      ∀ e, res = .error e → Fails (opening root folder r) e := by
  have hx := Link.exchange_leads "open_project"
    [("root", .string root), ("ropefolder", Json.optional Json.string folder)] hr
  rw [exec_viaWorker, Link.openProject_eq, exec_reading]
  refine ⟨_, _, rfl, .one hx hr, fun reported hres => ?_, fun e hres => ?_⟩
  · obtain ⟨reply, hs, hd⟩ := ok_of_bind (ok_of_mapError hres)
    refine ⟨reply, hs, hx.accepted hs, fun _ => ?_, by simp, by simp, by simp⟩
    cases hf : (Fields.get? reply.data "root").bind Json.string? with
    | some s => exact ⟨s, rfl⟩
    | none =>
      rw [hf] at hd
      cases hd
  · cases hs : (exec (Link.send "open_project" _) r).1 with
    | error err =>
      rw [hs] at hres
      obtain rfl := Except.error.inj hres
      exact .ungranted hs w
    | ok reply =>
      rw [hs] at hres
      cases hf : (Fields.get? reply.data "root").bind Json.string? with
      | some s =>
        simp only [Except.bind, hf] at hres
        cases hres
      | none =>
        simp only [Except.bind, hf] at hres
        obtain rfl := Except.error.inj hres
        refine .unfit hs fun hd => ?_
        obtain ⟨s, hr⟩ := hd.root rfl
        rw [hf] at hr
        cases hr

def arrive (h : Host) (c : Interpreter.Choice) (p : Project) : Act (Interpreter.Found × Bytes) := do
  let found ← (Interpreter.discover h c).mapError Interpreter.Error.failure
  let root ← canonicalRoot h p.root
  viaWorker h.wording (Link.start h found.path)
  return (found, root)

def introduce (h : Host) (folder : Option String) (a : Interpreter.Found × Bytes) :
    Act (Session (Run Link)) := do
  match ← (viaWorker h.wording (Link.openProject (textLossy a.2) folder)).attempt with
  | .error e =>
    close h
    throw e
  | .ok reported =>
    let version := (← get).engine.version
    Run.log ⟨.session, .info, "opened rope project",
      [("root", textLossy a.2), ("python", a.1.version.text),
        ("rope", Text.quoted (a.1.library.version.getD "unknown"))]⟩
    Run.log ⟨.session, .debug, "rope project address",
      [("reported", reported), ("worker", Text.quoted (version.getD "unknown"))]⟩
    return ofWorker h a.2

theorem start_eq (h : Host) (c : Interpreter.Choice) (p : Project) :
    start h c p = arrive h c p >>= introduce h p.libraryFolder := by
  simp only [start, arrive, bind_assoc, pure_bind]
  rfl

inductive Admission (h : Host) (root : Bytes) (folder : Option String) (r : Run Link) :
    Except Failure (Session (Run Link)) → Run Link → Prop
  | refused {e : Failure} {r₁ r' : Run Link} {bye : List Exchange}
    (ht : Talk r r₁ [opening (textLossy root) folder r])
    (hf : Fails (opening (textLossy root) folder r) e)
    (hc : Closes r₁ r' bye) : Admission h root folder r (.error e) r'
  | admitted {reply : Reply} {r' : Run Link} (ht : Talk r r' [opening (textLossy root) folder r])
    (hr : (opening (textLossy root) folder r).result = .ok reply)
    (ha : (opening (textLossy root) folder r).Accepted reply)
    (hd : Decodes "open_project" reply.data) : Admission h root folder r (.ok (ofWorker h root)) r'

theorem introduce_admission (h : Host) (folder : Option String) (found : Interpreter.Found)
    (root : Bytes) {r : Run Link} (hr : r.engine.isRunning = true) :
    Admission h root folder r (exec (introduce h folder (found, root)) r).1
      (exec (introduce h folder (found, root)) r).2 := by
  obtain ⟨res, r₁, ho, ht, hok, herror⟩ := exec_openProject h.wording (textLossy root) folder hr
  have hb : exec ((viaWorker h.wording (Link.openProject (textLossy root) folder)).attempt
    : Act _) r = _ := exec_attempt _ r
  rw [ho] at hb
  rw [introduce, exec_bind_of_ok hb]
  cases res with
  | error e =>
    obtain ⟨r', bye, hc, hcl⟩ := exec_close h r₁
    dsimp only
    rw [exec_bind_of_ok hc]
    exact .refused ht (herror e rfl) hcl
  | ok reported =>
    obtain ⟨reply, hx, ha, hd⟩ := hok reported rfl
    have hl (e e' : Log.Entry) : r₁.Extends Event.isTold
        { r₁ with journal := r₁.journal ++ [.logged e] ++ [.logged e'] } :=
      ⟨rfl, [_, _], List.append_assoc _ _ _, by simp [Event.isTold]⟩
    exact .admitted (ht.before_told (hl _ _)) hx ha hd

/-- How a session gets as far as the greeting of its worker, or does not. -/
inductive Arrival (h : Host) (r : Run Link) :
    Except Failure (Interpreter.Found × Bytes) → Run Link → Prop
  | failed {e : Failure} {r₁ r' : Run Link} (hx : r.Extends Event.sparesWorker r₁)
    (ha : Link.Abandoned r₁ r') : Arrival h r (.error e) r'
  | arrived {found : Interpreter.Found} {root : Bytes} {program : Host.Running} {r₁ r' : Run Link}
    (hx : r.Extends Event.sparesWorker r₁) (hs : Link.Started h found.path program r₁ r') :
    Arrival h r (.ok (found, root)) r'

/-- Without an interpreter or a root no worker is started. -/
theorem exec_arrive_missing {h : Host} {c : Interpreter.Choice} {p : Project} {r : Run Link}
    (hm : (∃ e, (exec (Interpreter.discover h c) r).1 = .error e) ∨
      ∃ e, canonicalRoot h p.root = .error e) :
    ∃ e r', exec (arrive h c p) r = (.error e, r') ∧ r.Extends Event.sparesWorker r' := by
  have hd := exec_mapError Interpreter.Error.failure (Interpreter.discover h c) r
  have hx := Interpreter.discover_spares h c r
  rcases hf : exec (Interpreter.discover h c) r with ⟨found, r₁⟩
  rw [hf] at hd hm hx
  cases found with
  | error e => exact ⟨_, r₁, exec_bind_of_error hd, hx⟩
  | ok found =>
    obtain ⟨e, he⟩ | ⟨e, he⟩ := hm
    · cases he
    · refine ⟨e, r₁, (exec_bind_of_ok hd).trans ?_, hx⟩
      rw [he]
      rfl

theorem exec_start_missing {h : Host} {c : Interpreter.Choice} {p : Project} {r : Run Link}
    (hm : (∃ e, (exec (Interpreter.discover h c) r).1 = .error e) ∨
      ∃ e, canonicalRoot h p.root = .error e) :
    ∃ e r', exec (start h c p) r = (.error e, r') ∧ r.Extends Event.sparesWorker r' := by
  obtain ⟨e, r', he, hx⟩ := exec_arrive_missing hm
  rw [start_eq, exec_bind_of_error he]
  exact ⟨e, r', rfl, hx⟩

theorem arrive_arrival (h : Host) (c : Interpreter.Choice) (p : Project) {r : Run Link}
    (hr : r.engine.isRunning = false) :
    Arrival h r (exec (arrive h c p) r).1 (exec (arrive h c p) r).2 := by
  by_cases hm : (∃ e, (exec (Interpreter.discover h c) r).1 = .error e) ∨
      ∃ e, canonicalRoot h p.root = .error e
  · obtain ⟨e, r', he, hx⟩ := exec_arrive_missing hm
    rw [he]
    exact .failed hx ⟨by rw [hx.engine, hr], [], (List.append_nil _).symm, rfl⟩
  · have hd := exec_mapError Interpreter.Error.failure (Interpreter.discover h c) r
    have hx := Interpreter.discover_spares h c r
    rcases hf : exec (Interpreter.discover h c) r with ⟨found, r₁⟩
    rw [hf] at hd hx hm
    cases found with
    | error e => exact absurd (.inl ⟨e, rfl⟩) hm
    | ok found =>
      cases hc : canonicalRoot h p.root with
      | error e => exact absurd (.inr ⟨e, hc⟩) hm
      | ok root =>
        have hw := exec_viaWorker h.wording (Link.start h found.path) r₁
        have hr₁ : r₁.engine.isRunning = false := by rw [hx.engine, hr]
        rw [arrive, exec_bind_of_ok hd, hc, liftM_ok, pure_bind]
        obtain ⟨res, r₂, he, ⟨e, rfl, ha⟩ | ⟨rfl, program, hs⟩⟩ := Link.exec_start h found.path hr₁
        · rw [he] at hw
          rw [exec_bind_of_error hw]
          exact .failed hx ha
        · rw [he] at hw
          rw [exec_bind_of_ok hw]
          exact .arrived hx hs

end Session

end Relocate
