import Relocate.Proofs.Worker.Start
import Relocate.Proofs.Worker.Status

namespace Relocate.Worker

open Relocate.Action
open Utf8 (Bytes)

/-- How a worker is lost over request `id`, written as `line`, and what is said of it. -/
inductive Lost (p : Pipes) (id : Nat) (line : Bytes) : String → Prop
  /-- It does not take the request. -/
  | unsent (hw : (p.write line).complete = false) : Lost p id line SystemError.brokenPipe.message
  /-- There is nothing more to read, or reading fails. -/
  | ended (hw : (p.write line).complete = true) (hs : ∀ l ∈ p.unread, Skipped id l) :
    Lost p id line (Link.unanswered p.fault)
  | unreadable {skipped rest : List Line} {l : Line} (hw : (p.write line).complete = true)
    (hp : p.unread = skipped ++ l :: rest) (hs : ∀ l ∈ skipped, Skipped id l)
    (hl : l.text? = none) : Lost p id line SystemError.notText.message

inductive Spared {α : Type} : Except Error α → Prop
  | ok (a : α) : Spared (.ok a)
  | refused (code message : String) (traceback : Option String) :
    Spared (.error (.refused code message traceback))
  | invalidReply (reason : String) : Spared (.error (.invalidReply reason))
  | unreadable (line : String) : Spared (.error (.unreadable line))
  | data (cause : DataError) : Spared (.error (.data cause))

theorem Spared.not_crashed {α : Type} {res : Except Error α} (h : Spared res) (reason : String) :
    res ≠ .error (.crashed reason) := by
  cases h <;> nofun

theorem Spared.of_data {α : Type} (d : Except DataError α) : Spared (d.mapError Error.data) := by
  cases d with
  | ok a => exact .ok a
  | error cause => exact .data cause

theorem Pipes.answered_eq_crashed_iff {p : Pipes} {id : Nat} {line : Bytes} {reason : String} :
    p.answered id line = .error (.crashed reason) ↔ Lost p id line reason := by
  unfold answered
  constructor
  · intro h
    cases hw : (p.write line).complete with
    | false =>
      rw [hw] at h
      cases h
      exact .unsent hw
    | true =>
      rw [hw, if_pos rfl, settle] at h
      have ha := decided_append (verdict? id) (.error (.crashed (Link.unanswered p.fault))) p.unread
      obtain ⟨skipped, l, ht, hs, hl⟩ | ⟨hs, he⟩ :=
        decided_cases (verdict? id) (.error (.crashed (Link.unanswered p.fault))) p.unread
      · rw [h, verdict?_eq_crashed_iff] at hl
        obtain ⟨hl, rfl⟩ := hl
        rw [ht, List.append_assoc] at ha
        exact .unreadable hw ha.symm (fun l hm => passed_over (hs l hm)) hl
      · rw [he] at h
        cases h
        exact .ended hw fun l hm => passed_over (hs l hm)
  · intro h
    cases h with
    | unsent hw => rw [hw, if_neg Bool.false_ne_true]
    | ended hw hs =>
      have he := decided_skip (fun l hm => verdict?_skipped (hs l hm))
        (.error (.crashed (Link.unanswered p.fault))) []
      rw [List.append_nil] at he
      rw [hw, if_pos rfl, settle, he]
      rfl
    | unreadable hw hp hs hl =>
      rw [hw, if_pos rfl, hp, settle, decided_skip fun l hm => verdict?_skipped (hs l hm),
        decided_of_some (verdict?_eq_crashed_iff.mpr ⟨hl, rfl⟩)]

theorem isCrash_iff {res : Except Error Reply} :
    isCrash res = true ↔ ∃ reason, res = .error (.crashed reason) := by
  constructor
  · intro h
    unfold isCrash at h
    split at h
    · exact ⟨_, rfl⟩
    · cases h
  · rintro ⟨reason, rfl⟩
    rfl

theorem Pipes.answered_spared {p : Pipes} {id : Nat} {line : Bytes}
    (h : isCrash (p.answered id line) = false) : Spared (p.answered id line) := by
  have hw := complete_of_answered h
  unfold answered at h ⊢
  rw [hw, if_pos rfl, settle] at h ⊢
  obtain ⟨skipped, l, -, -, hl⟩ | ⟨-, he⟩ :=
    decided_cases (verdict? id) (.error (.crashed (Link.unanswered p.fault))) p.unread
  · obtain ⟨reply, -, -, hv⟩ | ⟨-, hv⟩ | ⟨c, said, -, -, hv⟩ := verdict?_cases hl
    · rw [hv]
      split
      · exact .refused ..
      · exact .ok _
    · rw [hv] at h
      cases h
    · rw [hv]
      exact .unreadable _
  · rw [he] at h
    cases h

namespace Link

open Operation

/-- The process and both pipes are there, or none of them is. -/
def IsWhole (k : Link) : Prop :=
  k.isRunning = true ∨ k.child = none ∧ k.inlet = none ∧ k.outlet = none

/-- The process of a program is still in the link, or its end was waited for. -/
inductive Tends (k : Link) (program : String) : Prop
  | present {c : Child} (hk : k.child = some c) (hp : c.program = program) : Tends k program
  | waited {c : Child} (hk : k.child = none) (hg : k.gone = some c) (hp : c.program = program)
    (hw : c.waited = true) : Tends k program

namespace Tends

variable {k : Link} {program : String}

theorem congr {k' : Link} (h : k.Tends program) (hc : k'.child = k.child) (hg : k'.gone = k.gone) :
    k'.Tends program := by
  cases h with
  | present hk hp => exact .present (hc.trans hk) hp
  | waited hk hk' hp hw => exact .waited (hc.trans hk) (hg.trans hk') hp hw

theorem dismiss {care : Child → Child} (h : k.Tends program)
    (hp : ∀ c, (care c).program = c.program) (hw : ∀ c, (care c).waited = true) :
    (k.dismiss care).Tends program := by
  cases h with
  | @present c hk hc => exact .waited rfl (by rw [Link.dismiss, hk]; rfl) ((hp c).trans hc) (hw c)
  | waited hk hg hc hd => exact .waited rfl (by rw [Link.dismiss, hk]; exact hg) hc hd

theorem stopped (h : k.Tends program) : k.stopped.Tends program := by
  have hd : (k.dismiss fun c => c.kill.wait).Tends program := h.dismiss (fun _ => rfl) fun _ => rfl
  exact hd.congr rfl rfl

theorem released (h : k.Tends program) : k.released.Tends program := by
  have hs : k.severed.Tends program := h.congr rfl rfl
  exact hs.dismiss (fun _ => rfl) fun _ => rfl

theorem gone (h : k.Tends program) (hc : k.child = none) :
    ∃ c, k.gone = some c ∧ c.program = program ∧ c.waited = true := by
  cases h with
  | present hk hp =>
    rw [hc] at hk
    cases hk
  | waited hk hg hp hw => exact ⟨_, hg, hp, hw⟩

end Tends

def after : List Operation → Run Link → Run Link
  | [], r => r
  | o :: rest, r => after rest (exec o.run r).2

theorem Operation.read_spared (o : Operation) (reply : Reply) : Spared (o.read reply) := by
  cases o with
  | send name parameters => exact .ok reply
  | openProject root folder =>
    rw [read]
    cases (Fields.get? reply.data "root").bind Json.string? with
    | some s => exact .ok s
    | none => exact .invalidReply _
  | createMove path index => exact .of_data _
  | isPythonFile path kind => exact .ok _
  | getChanges move destination kind => exact .of_data _
  | applyChanges changes => exact .ok _
  | importCandidates name => exact .of_data _
  | shutdown => exact .ok _

theorem Operation.bind_read_eq_crashed_iff (o : Operation) {res : Except Error Reply}
    {reason : String} :
    res.bind o.read = .error (.crashed reason) ↔ res = .error (.crashed reason) := by
  cases res with
  | ok reply => exact iff_of_false ((o.read_spared reply).not_crashed reason) nofun
  | error e => exact ⟨fun h => congrArg _ (Except.error.inj h), fun h => congrArg _ (Except.error.inj h)⟩

theorem Operation.bind_read_spared (o : Operation) {res : Except Error Reply} (h : Spared res) :
    Spared (res.bind o.read) := by
  cases h with
  | ok reply => exact o.read_spared reply
  | refused code message traceback => exact .refused code message traceback
  | invalidReply reason => exact .invalidReply reason
  | unreadable line => exact .unreadable line
  | data cause => exact .data cause

theorem run_idle (o : Operation) {r : Run Link} (hr : r.engine.isRunning = false) :
    (exec o.run r).2 = r := by
  rw [← perform_eq_run, perform_idle o hr]

theorem after_idle (ops : List Operation) {r : Run Link} (hr : r.engine.isRunning = false) :
    after ops r = r := by
  induction ops with
  | nil => rfl
  | cons o ops ih => rw [after, run_idle o hr, ih]

theorem send_whole (operation : String) (parameters : Fields) {r : Run Link} {p : Pipes}
    (hp : r.engine.pipes = some p) : (exec (send operation parameters) r).2.engine.IsWhole := by
  obtain ⟨r', he, -, hk⟩ := exec_send operation parameters hp rfl
  have hp' : (numbered operation r).engine.pipes = some p := hp
  rw [he]
  dsimp only
  rw [hk]
  split
  · exact .inr ⟨rfl, rfl, rfl⟩
  · exact .inl (isRunning_piping hp' _)

theorem send_tends (operation : String) (parameters : Fields) {r : Run Link} {p : Pipes}
    (hp : r.engine.pipes = some p) {program : String} (h : r.engine.Tends program) :
    (exec (send operation parameters) r).2.engine.Tends program := by
  obtain ⟨r', he, -, hk⟩ := exec_send operation parameters hp rfl
  have hn : (numbered operation r).engine.Tends program := h.congr rfl rfl
  rw [he]
  dsimp only
  rw [hk]
  split
  · exact hn.stopped
  · exact hn.congr rfl rfl

theorem run_whole (o : Operation) {r : Run Link} (h : r.engine.IsWhole) :
    (exec o.run r).2.engine.IsWhole := by
  cases hr : r.engine.isRunning with
  | false => rwa [run_idle o hr]
  | true =>
    obtain ⟨p, hp⟩ := pipes_of_running hr
    by_cases ho : o = .shutdown
    · subst ho
      rw [Operation.run, exec_shutdown_running hr]
      exact .inr ⟨rfl, rfl, rfl⟩
    · rw [exec_run ho]
      exact send_whole o.name o.parameters hp

theorem after_whole (ops : List Operation) {r : Run Link} (h : r.engine.IsWhole) :
    (after ops r).engine.IsWhole := by
  induction ops generalizing r with
  | nil => exact h
  | cons o ops ih => exact ih (run_whole o h)

theorem start_whole (h : Host) (path : String) {r : Run Link} (hw : r.engine.IsWhole)
    (hr : r.engine.isRunning = false) : (exec (start h path) r).2.engine.IsWhole ∧
      ((exec (start h path) r).1 = .ok () ∨
        (exec (start h path) r).2.engine.isRunning = false) := by
  obtain ⟨program, hf⟩ | hl := finds_or_lost h path
  · obtain ⟨r', he, -, hk⟩ := exec_start_spawned r hf
    rw [he]
    dsimp only
    rw [hk]
    cases (welcome (workerOf program).fault (workerOf program).unread).2 with
    | ok greeting => exact ⟨.inl rfl, .inl rfl⟩
    | error reason => exact ⟨.inr ⟨rfl, rfl, rfl⟩, .inr rfl⟩
  · obtain ⟨e, es, he, -⟩ := exec_start_lost r hl
    rw [he]
    exact ⟨hw, .inr hr⟩

theorem start_tends (h : Host) (path : String) {r : Run Link} (hn : workers r.journal = [])
    {program : String} (hm : program ∈ workers (exec (start h path) r).2.journal) :
    (exec (start h path) r).2.engine.Tends program := by
  obtain ⟨found, hf⟩ | hl := finds_or_lost h path
  · obtain ⟨r', he, hj, hk⟩ := exec_start_spawned r hf
    have hs : workers (spawned path found r).journal = [path] := by
      rw [spawned, workers_append, hn]
      rfl
    rw [he] at hm ⊢
    dsimp only at hm ⊢
    rw [hj.workers, hs] at hm
    obtain rfl := List.mem_singleton.mp hm
    have ht : (spawned program found r).engine.Tends program := .present rfl rfl
    rw [hk]
    cases (welcome (workerOf found).fault (workerOf found).unread).2 with
    | ok greeting => exact ht.congr rfl rfl
    | error reason => exact (ht.congr rfl rfl).stopped
  · obtain ⟨e, es, he, -, hes⟩ := exec_start_lost r hl
    rw [he] at hm
    dsimp only at hm
    rw [workers_append, hn, hes] at hm
    cases hm

/-- An operation on a running link is over with it just when the worker is lost. -/
theorem run_stops_iff {o : Operation} (ho : o ≠ .shutdown) {r : Run Link} {p : Pipes}
    (hp : r.engine.pipes = some p) :
    ((exec o.run r).2.engine.isRunning = false ↔
      ∃ reason, (exec o.run r).1 = .error (.crashed reason)) ∧
    ((exec o.run r).2.engine.isRunning = true ↔ Spared (exec o.run r).1) ∧
    ∀ reason, (exec o.run r).1 = .error (.crashed reason) ↔
      Lost p r.engine.nextId (requestLine r.engine.nextId o.name o.parameters) reason := by
  obtain ⟨line, hline⟩ : ∃ line, line = requestLine r.engine.nextId o.name o.parameters := ⟨_, rfl⟩
  obtain ⟨r', he, -, hk⟩ := exec_send o.name o.parameters hp hline
  have hp' : (numbered o.name r).engine.pipes = some p := hp
  rw [exec_run ho, he, ← hline]
  dsimp only
  have hlost (reason : String) : (p.answered r.engine.nextId line).bind o.read =
      .error (.crashed reason) ↔ Lost p r.engine.nextId line reason := by
    rw [o.bind_read_eq_crashed_iff, Pipes.answered_eq_crashed_iff]
  cases hc : isCrash (p.answered r.engine.nextId line) with
  | true =>
    obtain ⟨reason, ha⟩ := isCrash_iff.mp hc
    have hl := o.bind_read_eq_crashed_iff.mpr ha
    rw [hk, hc, if_pos rfl]
    exact ⟨iff_of_true rfl ⟨reason, hl⟩, iff_of_false nofun fun hs => hs.not_crashed reason hl, hlost⟩
  | false =>
    have hr : r'.engine.isRunning = true := by
      rw [hk, hc, if_neg Bool.false_ne_true]
      exact isRunning_piping hp' _
    have hs := o.bind_read_spared (Pipes.answered_spared hc)
    refine ⟨iff_of_false (by simp [hr]) ?_, iff_of_true hr hs, hlost⟩
    exact fun ⟨reason, hl⟩ => hs.not_crashed reason hl

/-- However a worker behaves that was started with success, and whatever is asked of it: its process
and its pipes are all there or all gone, and once gone for good. Then every operation fails at once
and leaves the run as it is. Before, an operation gives the worker up just when it is lost over the
request, and says how; any other result leaves it running. -/
theorem start_lifecycle {h : Host} {path : String} {r₀ r : Run Link}
    (hs : exec (start h path) r₀ = (.ok (), r)) (ops : List Operation) :
    (after ops r).engine.IsWhole ∧
      ((after ops r).engine.isRunning = false → ∀ more, after more (after ops r) = after ops r) ∧
      ∀ o : Operation, o ≠ .shutdown →
        ((after ops r).engine.isRunning = false →
          exec o.run (after ops r) = (.error (.crashed "worker is not running"), after ops r)) ∧
        ∀ p, (after ops r).engine.pipes = some p →
          ((exec o.run (after ops r)).2.engine.isRunning = false ↔
            ∃ reason, (exec o.run (after ops r)).1 = .error (.crashed reason)) ∧
          ((exec o.run (after ops r)).2.engine.isRunning = true ↔
            Spared (exec o.run (after ops r)).1) ∧
          ∀ reason, (exec o.run (after ops r)).1 = .error (.crashed reason) ↔
            Lost p (after ops r).engine.nextId
              (requestLine (after ops r).engine.nextId o.name o.parameters) reason := by
  have hw : r.engine.IsWhole := .inl (running_of_start hs)
  refine ⟨after_whole ops hw, fun hr more => after_idle more hr, fun o ho => ⟨fun hr => ?_, ?_⟩⟩
  · rw [exec_run ho, exec_send_idle o.name o.parameters (pipes_of_idle hr)]
    rfl
  · exact fun p hp => run_stops_iff ho hp

section

def parting : Interpreter := ⟨.empty, .empty, ⟨⟨[greetingLine], none⟩, ⟨none⟩⟩, .empty⟩

theorem exec_start_parting : ∃ r,
    exec (start (soloHost parting) "/python3") ⟨[], [], none, none, closed⟩ = (.ok (), r) ∧
      r.engine =
        ⟨some (.spawned "/python3"), some ⟨none⟩, some ⟨[], none⟩, 1, some "1.0", none⟩ := by
  obtain ⟨r, he, -, hk⟩ := exec_start_spawned ⟨[], [], none, none, closed⟩ (soloHost_finds parting)
  have hw : welcome (workerOf ⟨["python3"], parting, none⟩).fault
      (workerOf ⟨["python3"], parting, none⟩).unread = ([greetingLine], .ok ⟨"ready", "1.0", "1.13"⟩) :=
    decided_of_some tidings?_greetingLine _ _
  rw [hw] at he hk
  exact ⟨r, he, hk⟩

theorem parting_lifecycle : ∃ r,
    exec (start (soloHost parting) "/python3") ⟨[], [], none, none, closed⟩ = (.ok (), r) ∧
    r.engine.isRunning = true ∧
    (exec (Operation.applyChanges "changes-1").run r).1 = .error (.crashed "unexpected EOF") ∧
    (exec (Operation.applyChanges "changes-1").run r).2.engine.isRunning = false := by
  obtain ⟨r, he, hk⟩ := exec_start_parting
  have hp : r.engine.pipes = some ⟨⟨[], none⟩, ⟨none⟩⟩ := by
    rw [hk]
    rfl
  obtain ⟨-, -, h⟩ := start_lifecycle he []
  obtain ⟨hstop, -, hlost⟩ := (h (.applyChanges "changes-1") nofun).2 _ hp
  have hc := (hlost _).mpr (.ended rfl (List.forall_mem_nil _))
  exact ⟨r, he, running_of_start he, hc, hstop.mpr ⟨_, hc⟩⟩

end

end Link

end Relocate.Worker
