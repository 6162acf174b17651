import Relocate.Proofs.Text.Lines
import Relocate.Proofs.Worker.Start
import Relocate.Proofs.Worker.Status

namespace Relocate.Worker

open Relocate.Action
open Utf8 (Bytes)

/-- Lines and, before any of them, others that are noise. -/
inductive Padded (noise : Line → Prop) : List Line → List Line → Prop
  | nil : Padded noise [] []
  | keep (line : Line) {ls ls' : List Line} (h : Padded noise ls ls') :
    Padded noise (line :: ls) (line :: ls')
  | insert {n line : Line} {ls ls' : List Line} (hn : noise n) (h : Padded noise (line :: ls) ls') :
    Padded noise (line :: ls) (n :: ls')

namespace Padded

variable {noise noise' : Line → Prop} {ls ls' ms ms' : List Line}

theorem refl (noise : Line → Prop) (ls : List Line) : Padded noise ls ls := by
  induction ls with
  | nil => exact .nil
  | cons line ls ih => exact .keep line ih

theorem nil_of (h : Padded noise [] ls') : ls' = [] := by
  cases h
  rfl

theorem mono (hn : ∀ n, noise n → noise' n) (h : Padded noise ls ls') : Padded noise' ls ls' := by
  induction h with
  | nil => exact .nil
  | keep line _ ih => exact .keep line ih
  | insert h _ ih => exact .insert (hn _ h) ih

theorem append (h : Padded noise ls ls') (h' : Padded noise ms ms') :
    Padded noise (ls ++ ms) (ls' ++ ms') := by
  induction h with
  | nil => exact h'
  | keep line _ ih => exact .keep line ih
  | insert h _ ih => exact .insert h ih

theorem areLines (hn : ∀ n, noise n → n.IsComplete) (h : Padded noise ls ls')
    (hl : Line.AreLines ls) : Line.AreLines ls' := by
  induction h with
  | nil => exact hl
  | @keep line ls ls' h ih =>
    by_cases hne : ls = []
    · subst hne
      rwa [h.nil_of]
    · obtain ⟨hc, hl⟩ := hl.of_cons hne
      exact .cons hc (ih hl)
  | insert h _ ih => exact .cons (hn _ h) (ih hl)

variable {α : Type} {verdict : Line → Option α} {atEnd : α}

theorem decided_snd (hn : ∀ n, noise n → verdict n = none) (h : Padded noise ls ls') :
    (decided verdict atEnd ls').2 = (decided verdict atEnd ls).2 := by
  induction h with
  | nil => rfl
  | keep line _ ih =>
    cases hv : verdict line with
    | some a => rw [decided_of_some hv, decided_of_some hv]
    | none => rw [decided_of_none hv, decided_of_none hv, ih]
  | insert h _ ih => rw [decided_of_none (hn _ h), ih]

theorem decided_eq (hn : ∀ n, noise n → verdict n = none) (h : Padded noise ls ls') {a : α}
    (hd : decided verdict atEnd (ls ++ ms) = (ls, a)) (hm : ms = [] → ms' = []) :
    decided verdict atEnd (ls' ++ ms') = (ls', a) := by
  induction h with
  | nil =>
    have hms : ms = [] := by
      have ha := decided_append verdict atEnd ms
      cases ms with
      | nil => rfl
      | cons line ms =>
        cases hv : verdict line with
        | some b =>
          rw [List.nil_append, decided_of_some hv] at hd
          cases hd
        | none =>
          rw [List.nil_append, decided_of_none hv] at hd
          cases hd
    rw [hm hms]
    rwa [hms] at hd
  | @keep line ls ls' h ih =>
    rw [List.cons_append] at hd ⊢
    cases hv : verdict line with
    | some b =>
      rw [decided_of_some hv] at hd ⊢
      obtain ⟨hls, rfl⟩ := Prod.mk.inj hd
      obtain rfl : ls = [] := (List.cons.inj hls).2.symm
      rw [h.nil_of]
    | none =>
      rw [decided_of_none hv] at hd ⊢
      obtain ⟨hls, hb⟩ := Prod.mk.inj hd
      rw [ih (Prod.ext (List.cons.inj hls).2 hb)]
  | insert h _ ih => rw [List.cons_append, decided_of_none (hn _ h), ih hd]

end Padded

def Chatter (line : Line) : Prop :=
  ∃ said, said? line = some said ∧ (said = [] ∨
    (∀ greeting, Greeting.ofText? said = some greeting → greeting.status ≠ "ready") ∧
      ∀ reply, Reply.ofText? said = some reply → reply.status ≠ "error")

theorem tidings?_chatter {line : Line} (h : Chatter line) : tidings? line = none := by
  obtain ⟨said, hs, hc⟩ := h
  unfold tidings?
  rw [hs]
  cases said with
  | nil => rfl
  | cons c said =>
    obtain hc | ⟨hg, hr⟩ := hc
    · cases hc
    · have hg' : (Greeting.ofText? (c :: said)).filter (fun g => g.status = "ready") = none := by
        simpa [Option.filter_eq_none_iff] using hg
      have hr' : (Reply.ofText? (c :: said)).filter Reply.isError = none := by
        simpa [Option.filter_eq_none_iff, Reply.isError] using hr
      simp only [hg', hr', Option.map_none]

/-- The lines that exchanges read, each with complete lines before it that the exchange passes over,
and then the rest. -/
inductive Noisy (rest : List Line) : List Exchange → List Line → Prop
  | nil : Noisy rest [] rest
  | cons {x : Exchange} {xs : List Exchange} {taken lines : List Line}
    (hx : Padded (fun n => n.IsComplete ∧ Skipped x.id n) x.taken taken) (hs : Noisy rest xs lines) :
    Noisy rest (x :: xs) (taken ++ lines)

namespace Noisy

variable {rest lines : List Line} {xs : List Exchange}

theorem padded (h : Noisy rest xs lines) :
    Padded Line.IsComplete (xs.flatMap Exchange.taken ++ rest) lines := by
  induction h with
  | nil => exact .refl _ rest
  | cons hx _ ih =>
    rw [List.flatMap_cons, List.append_assoc]
    exact (hx.mono fun _ hn => hn.1).append ih

theorem nil_of (h : Noisy rest xs lines) (hn : xs.flatMap Exchange.taken ++ rest = []) :
    lines = [] := by
  have hp := h.padded
  rw [hn] at hp
  exact hp.nil_of

end Noisy

namespace Link

def hearing (k : Link) (lines : List Line) : Link :=
  { k with outlet := k.outlet.map fun o => { o with unread := lines } }

theorem released_hearing (k : Link) (lines : List Line) :
    (k.hearing lines).released = k.released := rfl

theorem hearing_released (k : Link) (lines : List Line) :
    k.released.hearing lines = k.released := rfl

@[simp] theorem nextId_hearing (k : Link) (lines : List Line) :
    (k.hearing lines).nextId = k.nextId := rfl

@[simp] theorem hearing_hearing (k : Link) (lines lines' : List Line) :
    (k.hearing lines).hearing lines' = k.hearing lines' := by
  simp [hearing, Function.comp_def]

theorem piping_hearing (k : Link) (p : Pipes) (lines : List Line) :
    (k.hearing lines).piping p = k.piping p := by
  simp [hearing, piping, Function.comp_def]

theorem hearing_piping (k : Link) (p : Pipes) (lines : List Line) :
    (k.piping p).hearing lines = k.piping { p with unread := lines } := by
  simp [hearing, piping, Function.comp_def]

theorem pipes_hearing {k : Link} {p : Pipes} (hp : k.pipes = some p) (lines : List Line) :
    (k.hearing lines).pipes = some { p with unread := lines } := by
  obtain ⟨child, hk⟩ := eq_of_pipes hp
  rw [hk]
  rfl

theorem isRunning_hearing (k : Link) (lines : List Line) :
    (k.hearing lines).isRunning = k.isRunning := by
  simp [isRunning, hearing]

end Link

theorem Pipes.write_hearing (p : Pipes) (lines : List Line) (line : Bytes) :
    ({ p with unread := lines } : Pipes).write line =
      { p.write line with pipes := { (p.write line).pipes with unread := lines } } := by
  obtain ⟨⟨unread, fault⟩, ⟨closing⟩⟩ := p
  unfold write
  cases closing with
  | none => rfl
  | some c =>
    obtain ⟨requests, bytes⟩ := c
    cases requests <;> rfl

/-- With noise among the lines that a request reads, the same comes of it, and it leaves the lines
that follow. -/
theorem Pipes.answered_noisy {p : Pipes} {id : Nat} {line : Bytes} {taken taken' tail tail' : List Line}
    (hu : p.unread = taken ++ tail) (hx : Padded (Skipped id) taken taken')
    (ht : tail = [] → tail' = []) (hcrash : isCrash (p.answered id line) = true → tail = [])
    (hsettled : isCrash (p.answered id line) = false →
      settle id p.fault p.unread = (taken, p.answered id line)) :
    ({ p with unread := taken' ++ tail' } : Pipes).answered id line = p.answered id line ∧
      (isCrash (p.answered id line) = false →
        ({ p with unread := taken' ++ tail' } : Pipes).after id line =
          { p.after id line with unread := tail' }) := by
  have hskip : ∀ n, Skipped id n → verdict? id n = none := fun n hn => verdict?_skipped hn
  cases hc : isCrash (p.answered id line) with
  | true =>
    -- All the lines went with the worker, and so does all the noise.
    have htail := hcrash hc
    refine ⟨?_, nofun⟩
    rw [htail, List.append_nil] at hu
    unfold answered
    rw [write_hearing, ht htail, List.append_nil, settle, hx.decided_snd hskip, hu]
  | false =>
    have hs := hsettled hc
    rw [hu, settle] at hs
    have hs' : settle id p.fault (taken' ++ tail') = (taken', p.answered id line) :=
      hx.decided_eq hskip hs ht
    have hw := complete_of_answered hc
    refine ⟨?_, fun _ => ?_⟩
    · rw [answered, write_hearing, hs', if_pos hw]
    · unfold after
      rw [write_hearing, hs', List.drop_left]

namespace Link

theorem numbered_hearing {operation : String} {r r' : Run Link} {lines : List Line}
    (hk : r'.engine = r.engine.hearing lines) :
    (numbered operation r').engine = (numbered operation r).engine.hearing lines := by
  rw [numbered, numbered, hk]
  rfl

theorem exec_send_noisy (operation : String) (parameters : Fields) {r r' : Run Link}
    {taken tail tail' : List Line} (hr : r.engine.isRunning = true)
    (hk : r'.engine = r.engine.hearing (taken ++ tail'))
    (hu : r.engine.unread = (exchange operation parameters r).taken ++ tail)
    (hx : Padded (Skipped (exchange operation parameters r).id)
      (exchange operation parameters r).taken taken) (ht : tail = [] → tail' = []) :
    (exec (send operation parameters) r').1 = (exec (send operation parameters) r).1 ∧
      (exec (send operation parameters) r').2.engine =
        (exec (send operation parameters) r).2.engine.hearing tail' ∧
      ∃ bytes, sentBytes (exec (send operation parameters) r).2.journal =
          sentBytes r.journal ++ bytes ∧
        sentBytes (exec (send operation parameters) r').2.journal = sentBytes r'.journal ++ bytes := by
  obtain ⟨p, hp⟩ := pipes_of_running hr
  obtain ⟨line, hline⟩ : ∃ line, line = requestLine r.engine.nextId operation parameters := ⟨_, rfl⟩
  have hn : r'.engine.nextId = r.engine.nextId := by
    rw [hk, nextId_hearing]
  have hp' : r'.engine.pipes = some { p with unread := taken ++ tail' } := by
    rw [hk]
    exact pipes_hearing hp _
  have hline' : line = requestLine r'.engine.nextId operation parameters := by
    rw [hn]
    exact hline
  obtain ⟨r₁, he, -, hk₁⟩ := exec_send operation parameters hp hline
  obtain ⟨r₁', he', -, hk₁'⟩ := exec_send operation parameters hp' hline'
  have hb := sentBytes_send operation parameters hp hline
  have hb' := sentBytes_send operation parameters hp' hline'
  rw [Pipes.write_hearing] at hb'
  obtain ⟨hid, -, hlines, -, -, -, -, hsettled⟩ := exchange_leads operation parameters hr
  have hresult : (exchange operation parameters r).result = p.answered r.engine.nextId line :=
    congrArg Prod.fst he
  rw [hid] at hx hsettled
  rw [unread_of_pipes hp] at hu hlines hsettled
  rw [fault_of_pipes hp, hresult] at hsettled
  rw [he] at hlines
  have hcrash : isCrash (p.answered r.engine.nextId line) = true → tail = [] := by
    intro hc
    rw [hk₁, hc, if_pos rfl, unread_stopped] at hlines
    exact List.append_cancel_left (hu.symm.trans hlines)
  obtain ⟨hanswer, hafter⟩ := Pipes.answered_noisy hu hx ht hcrash hsettled
  rw [hn] at he' hk₁'
  rw [hanswer] at he' hk₁'
  refine ⟨by rw [he, he'], ?_, _, hb, hb'⟩
  rw [he, he']
  dsimp only
  rw [hk₁, hk₁', numbered_hearing hk]
  cases hc : isCrash (p.answered r.engine.nextId line) with
  | true => rfl
  | false =>
    rw [if_neg Bool.false_ne_true, if_neg Bool.false_ne_true, hafter hc, piping_hearing, hearing_piping]

/-- One operation, and all that can be told of it afterwards: its result, the state of the link apart
from what is left to be read, and what the worker has taken up to then. -/
structure Observed where
  operation : Operation
  result : Except Error operation.Result
  link : Link
  sent : Bytes

def observed : List Operation → Run Link → List Observed
  | [], _ => []
  | o :: rest, r =>
    ⟨o, (exec o.run r).1, (exec o.run r).2.engine.hearing [], sentBytes (exec o.run r).2.journal⟩ ::
      observed rest (exec o.run r).2

/-- Two runs that differ in no more than what is left to be read, and in what they have logged. -/
structure Alike (r r' : Run Link) (lines' : List Line) : Prop where
  engine : r'.engine = r.engine.hearing lines'
  sent : sentBytes r'.journal = sentBytes r.journal

theorem Alike.run_idle {r r' : Run Link} {lines' : List Line} (h : Alike r r' lines') (o : Operation)
    (hr : r.engine.isRunning = false) :
    exec o.run r = ((exec o.run r).1, r) ∧ exec o.run r' = ((exec o.run r).1, r') := by
  have hr' : r'.engine.isRunning = false := by
    rw [h.engine, isRunning_hearing, hr]
  by_cases ho : o = .shutdown
  · subst ho
    have hs : exec (Operation.run .shutdown) r = (.ok (), r) := exec_shutdown_idle hr
    have hs' : exec (Operation.run .shutdown) r' = (.ok (), r') := exec_shutdown_idle hr'
    rw [hs, hs']
    exact ⟨rfl, rfl⟩
  · rw [exec_run ho, exec_run ho, exec_send_idle o.name o.parameters (pipes_of_idle hr),
      exec_send_idle o.name o.parameters (pipes_of_idle hr')]
    exact ⟨rfl, rfl⟩

theorem Alike.run {r r' : Run Link} {taken tail tail' : List Line} (o : Operation)
    (h : Alike r r' (taken ++ tail')) (hr : r.engine.isRunning = true)
    (hu : r.engine.unread = (exchange o.name o.parameters r).taken ++ tail)
    (hx : Padded (Skipped (exchange o.name o.parameters r).id)
      (exchange o.name o.parameters r).taken taken) (ht : tail = [] → tail' = []) :
    (exec o.run r').1 = (exec o.run r).1 ∧ Alike (exec o.run r).2 (exec o.run r').2 tail' := by
  obtain ⟨hres, hk, bytes, hb, hb'⟩ := exec_send_noisy o.name o.parameters hr h.engine hu hx ht
  rw [← h.sent] at hb
  by_cases ho : o = .shutdown
  · subst ho
    have hr' : r'.engine.isRunning = true := by
      rw [h.engine, isRunning_hearing, hr]
    have hs : exec (Operation.run .shutdown) r = _ := exec_shutdown_running hr
    have hs' : exec (Operation.run .shutdown) r' = _ := exec_shutdown_running hr'
    rw [hs, hs']
    refine ⟨rfl, ?_, ?_⟩
    · dsimp only [Operation.name, Operation.parameters] at hk ⊢
      rw [hk, released_hearing, hearing_released]
    · refine (sentBytes_append _ _).trans (.trans ?_ (sentBytes_append _ _).symm)
      exact congrArg (· ++ _) (hb'.trans hb.symm)
  · rw [exec_run ho, exec_run ho]
    exact ⟨by rw [hres], hk, hb'.trans hb.symm⟩

theorem run_unread {o : Operation} {r : Run Link} (hr : r.engine.isRunning = true)
    (hr' : (exec o.run r).2.engine.isRunning = true) :
    r.engine.unread =
      (exchange o.name o.parameters r).taken ++ (exec o.run r).2.engine.unread := by
  by_cases ho : o = .shutdown
  · subst ho
    have hs : exec (Operation.run .shutdown) r = _ := exec_shutdown_running hr
    rw [hs] at hr'
    cases hr'
  · rw [exec_run ho]
    exact (exchange_leads o.name o.parameters hr).lines

theorem Alike.observed {r r' : Run Link} {rest lines' : List Line} (ops : List Operation)
    (h : Alike r r' lines')
    (hu : r.engine.isRunning = true →
      r.engine.unread = (transcript ops r).flatMap Exchange.taken ++ rest)
    (hn : Noisy rest (transcript ops r) lines') : observed ops r' = observed ops r := by
  induction ops generalizing r r' lines' with
  | nil => rfl
  | cons o ops ih =>
    cases hr : r.engine.isRunning with
    | false =>
      obtain ⟨he, he'⟩ := h.run_idle o hr
      rw [transcript_idle _ hr] at hn
      have ht := ih h (fun hr' => absurd hr' (by rw [hr]; nofun)) (by rwa [transcript_idle _ hr])
      rw [Link.observed, Link.observed, he, he', ht, h.engine, h.sent, hearing_hearing]
    | true =>
      have hu := hu hr
      rw [transcript_running o ops hr] at hn hu
      rw [List.flatMap_cons, List.append_assoc] at hu
      cases hn with
      | @cons _ _ taken lines hx hs =>
        have ht : (transcript ops (exec o.perform r).2).flatMap Exchange.taken ++ rest = [] →
            lines = [] := hs.nil_of
        obtain ⟨hres, ha⟩ := h.run o hr hu (hx.mono fun _ hn => hn.2) ht
        rw [perform_eq_run] at hs hu
        have hu' (hr' : (exec o.run r).2.engine.isRunning = true) := run_unread hr hr'
        have hi := ih ha (fun hr' => List.append_cancel_left ((hu' hr').symm.trans hu)) hs
        rw [Link.observed, Link.observed, hres, hi, ha.engine, ha.sent, hearing_hearing]

/-- The lines of the stream `s` of a worker, with noise before those that were read until the run `r`,
when it was started, and before those that operations read from then on. -/
def Interspersed (s : Bytes) (r : Run Link) (ops : List Operation) (lines' : List Line) : Prop :=
  ∃ greeting greeting' replies' rest, Line.ofStream s = greeting ++ r.engine.unread ∧
    r.engine.unread = (transcript ops r).flatMap Exchange.taken ++ rest ∧
    Padded (fun n => n.IsComplete ∧ Chatter n) greeting greeting' ∧
    Noisy rest (transcript ops r) replies' ∧ lines' = greeting' ++ replies'

theorem Interspersed.ofStream_flatten {s : Bytes} {r : Run Link} {ops : List Operation}
    {lines' : List Line} (h : Interspersed s r ops lines') : Line.ofStream lines'.flatten = lines' := by
  obtain ⟨greeting, greeting', replies', rest, hg, hu, hp, hn, rfl⟩ := h
  have hpadded := (hp.mono fun _ hn => hn.1).append hn.padded
  rw [← hu, ← hg] at hpadded
  exact hpadded.areLines (fun _ hn => hn) (Line.areLines_ofStream s)

theorem spawned_hearing {path : String} {program program' : Host.Running} (r : Run Link)
    {lines' : List Line} (hp : workerOf program' = { workerOf program with unread := lines' }) :
    (spawned path program' r).engine = (spawned path program r).engine.hearing lines' := by
  rw [spawned, spawned, hp]
  rfl

theorem sentBytes_spawned (path : String) (program : Host.Running) (r : Run Link) :
    sentBytes (spawned path program r).journal = sentBytes r.journal := by
  have hs : sentBytes (spawned path program r).journal = _ := sentBytes_append _ _
  rw [hs]
  exact List.append_nil _

theorem start_alike {h h' : Host} {path : String} {program program' : Host.Running} {r : Run Link}
    {greeting greeting' replies' : List Line} (hf : Finds h path program)
    (hf' : Finds h' path program')
    (hp' : workerOf program' = { workerOf program with unread := greeting' ++ replies' })
    (hg : (workerOf program).unread = greeting ++ (exec (start h path) r).2.engine.unread)
    (hp : Padded Chatter greeting greeting')
    (hn : (exec (start h path) r).2.engine.unread = [] → replies' = []) :
    (exec (start h' path) r).1 = (exec (start h path) r).1 ∧
      Alike (exec (start h path) r).2 (exec (start h' path) r).2 replies' := by
  obtain ⟨r₁, he, hl, hk⟩ := exec_start_spawned r hf
  obtain ⟨r₁', he', hl', hk'⟩ := exec_start_spawned r hf'
  rw [spawned_hearing r hp', piping_hearing] at hk'
  rw [hp'] at he' hk'
  have hb : sentBytes r₁'.journal = sentBytes r₁.journal := by
    rw [hl.sentBytes, hl'.sentBytes, sentBytes_spawned, sentBytes_spawned]
  have hskip : ∀ n, Chatter n → tidings? n = none := fun n hn => tidings?_chatter hn
  rw [he] at hg hn
  rw [he, he']
  dsimp only at hg hn he' hk' ⊢
  cases hw : (welcome (workerOf program).fault (workerOf program).unread).2 with
  | error reason =>
    -- The worker is given up, and nothing is read any more.
    rw [hw] at hk
    have hr : r₁.engine.unread = [] := by
      rw [hk]
      rfl
    rw [hn hr, List.append_nil] at hk' ⊢
    rw [hr, List.append_nil] at hg
    have hw' : (welcome (workerOf program).fault greeting').2 = .error reason := by
      rw [← hw, hg]
      exact hp.decided_snd hskip
    rw [hw'] at hk' ⊢
    refine ⟨rfl, ?_, hb⟩
    rw [hk, hk']
    rfl
  | ok g =>
    rw [hw] at hk
    have hr : r₁.engine.unread = (workerOf program).unread.drop
        (welcome (workerOf program).fault (workerOf program).unread).1.length := by
      rw [hk]
      rfl
    have htaken : (welcome (workerOf program).fault (workerOf program).unread).1 = greeting := by
      have ha := decided_append tidings? (.error (ungreeted (workerOf program).fault))
        (workerOf program).unread
      rw [← welcome, ← hr] at ha
      exact List.append_cancel_right (ha.trans hg)
    have hd : welcome (workerOf program).fault (greeting ++ r₁.engine.unread) = (greeting, .ok g) := by
      rw [← hg]
      exact Prod.ext htaken hw
    have hw' : welcome (workerOf program).fault (greeting' ++ replies') = (greeting', .ok g) :=
      hp.decided_eq hskip hd hn
    rw [hw'] at hk' ⊢
    rw [List.drop_left] at hk'
    refine ⟨rfl, ?_, hb⟩
    rw [hk, hk']
    rfl

/-- Noise in what a worker writes changes nothing. With lines inserted that are blank, or chatter
before the worker has told whether it is ready, or the replies to other requests than the one that
is waited for, starting the worker and each operation after that has the same result, leaves the link
in the same state, and has the worker take the same requests. -/
theorem noise_unnoticed {h h' : Host} {path : String} {program program' : Host.Running} {s : Bytes}
    {lines' : List Line} (r : Run Link) (ops : List Operation) (hf : Finds h path program)
    (hf' : Finds h' path program') (hs : (workerOf program).unread = Line.ofStream s)
    (hs' : workerOf program' = { workerOf program with unread := Line.ofStream lines'.flatten })
    (hn : Interspersed s (exec (start h path) r).2 ops lines') :
    (exec (start h' path) r).1 = (exec (start h path) r).1 ∧
      (exec (start h' path) r).2.engine.hearing [] = (exec (start h path) r).2.engine.hearing [] ∧
      sentBytes (exec (start h' path) r).2.journal = sentBytes (exec (start h path) r).2.journal ∧
      observed ops (exec (start h' path) r).2 = observed ops (exec (start h path) r).2 := by
  rw [hn.ofStream_flatten] at hs'
  obtain ⟨greeting, greeting', replies', rest, hg, hu, hp, hr, rfl⟩ := hn
  obtain ⟨hres, ha⟩ := start_alike hf hf' hs' (hs.trans hg) (hp.mono fun _ hn => hn.2) fun hnil =>
    hr.nil_of (hu.symm.trans hnil)
  refine ⟨hres, ?_, ha.sent, ha.observed ops (fun _ => hu) hr⟩
  rw [ha.engine, hearing_hearing]

section

def grantLine : Line := Utf8.encode "\x7b\"id\": 1, \"status\": \"ok\"\x7d\n"

def lateLine : Line := Utf8.encode "\x7b\"id\": 0, \"status\": \"ok\"\x7d\n"

def obliging (output : Bytes) : Interpreter :=
  ⟨.empty, .empty, ⟨⟨Line.ofStream output, none⟩, ⟨none⟩⟩, .empty⟩

def noisyLines : List Line := [[10], greetingLine, lateLine, grantLine]

theorem isComplete_of_dropLast {l : Line} (h : l = l.dropLast ++ [10]) (hn : 10 ∉ l.dropLast) :
    l.IsComplete := ⟨_, h, hn⟩

theorem ofStream_obliging :
    Line.ofStream (greetingLine ++ grantLine) = [greetingLine, grantLine] := by
  have hg : Line.IsComplete greetingLine :=
    isComplete_of_dropLast (by decide +kernel) (by decide +kernel)
  have hr : Line.IsComplete grantLine :=
    isComplete_of_dropLast (by decide +kernel) (by decide +kernel)
  have ha := (Line.AreLines.nil.cons hr).cons hg
  simpa [Line.AreLines] using ha

theorem reply?_grantLine :
    ∃ reply, reply? grantLine = some reply ∧ reply.id = some 1 ∧ reply.status = "ok" :=
  exists_reply (by decide +kernel)

theorem skipped_lateLine : Skipped 1 lateLine := by
  obtain ⟨reply, hr, hi, -⟩ : ∃ reply, reply? lateLine = some reply ∧ reply.id = some 0 ∧
      reply.status = "ok" := exists_reply (by decide +kernel)
  exact .inr ⟨reply, hr, by rw [hi]; decide⟩

def obligingRun : Run Link :=
  (exec (start (soloHost (obliging (greetingLine ++ grantLine))) "/python3")
    ⟨[], [], none, none, closed⟩).2

theorem exec_start_obliging :
    exec (start (soloHost (obliging (greetingLine ++ grantLine))) "/python3")
          ⟨[], [], none, none, closed⟩ = (.ok (), obligingRun) ∧
      obligingRun.engine =
        ⟨some (.spawned "/python3"), some ⟨none⟩, some ⟨[grantLine], none⟩, 1, some "1.0", none⟩ := by
  obtain ⟨r, he, -, hk⟩ := exec_start_spawned ⟨[], [], none, none, closed⟩
    (soloHost_finds (obliging (greetingLine ++ grantLine)))
  have hw : welcome none [greetingLine, grantLine] = ([greetingLine], .ok ⟨"ready", "1.0", "1.13"⟩) :=
    decided_of_some tidings?_greetingLine _ _
  have hu : (workerOf ⟨["python3"], obliging (greetingLine ++ grantLine), none⟩).unread =
      [greetingLine, grantLine] := ofStream_obliging
  have hf : (workerOf ⟨["python3"], obliging (greetingLine ++ grantLine), none⟩).fault = none := rfl
  rw [hu, hf, hw] at he hk
  rw [obligingRun, he]
  refine ⟨rfl, ?_⟩
  rw [hk]
  rfl

theorem obligingRun_running : obligingRun.engine.isRunning = true :=
  running_of_start exec_start_obliging.1

theorem obligingRun_exchange :
    (exchange "apply_changes" [("changes", .string "changes-1")] obligingRun).id = 1 ∧
      (exchange "apply_changes" [("changes", .string "changes-1")] obligingRun).taken =
        [grantLine] := by
  obtain ⟨-, hk⟩ := exec_start_obliging
  have hp : obligingRun.engine.pipes = some ⟨⟨[grantLine], none⟩, ⟨none⟩⟩ := by
    rw [hk]
    rfl
  have hid : obligingRun.engine.nextId = 1 := by
    rw [hk]
  have hx := exchange_leads "apply_changes" [("changes", .string "changes-1")] obligingRun_running
  obtain ⟨reply, hreply, hi, hs⟩ := reply?_grantLine
  have hv : verdict? 1 grantLine = some (.ok reply) := by
    rw [verdict?_reply hreply hi, Reply.verdict, Reply.isError, hs]
    rfl
  have hsettle : settle 1 none [grantLine] = ([grantLine], .ok reply) := decided_of_some hv _ _
  have hsent : (exec (send "apply_changes" [("changes", .string "changes-1")]) obligingRun).1 =
      .ok reply := by
    have ha : Answers obligingRun.engine.nextId [grantLine] reply := by
      rw [hid]
      exact ⟨[], grantLine, [], rfl, List.forall_mem_nil _, hreply, hi⟩
    refine send_eq_ok_iff.mpr ⟨⟨_, hp, rfl, ha⟩, ?_⟩
    rw [hs]
    decide
  have hsettled := hx.settled (congrArg isCrash hsent)
  rw [hx.id, hid, unread_of_pipes hp, fault_of_pipes hp, hsettle] at hsettled
  exact ⟨hx.id.trans hid, (Prod.mk.inj hsettled).1.symm⟩

theorem obliging_unnoticed : ∃ r r',
    exec (start (soloHost (obliging (greetingLine ++ grantLine))) "/python3")
      ⟨[], [], none, none, closed⟩ = (.ok (), r) ∧
    exec (start (soloHost (obliging noisyLines.flatten)) "/python3")
      ⟨[], [], none, none, closed⟩ = (.ok (), r') ∧
    observed [.applyChanges "changes-1"] r' = observed [.applyChanges "changes-1"] r := by
  obtain ⟨hstart, hk⟩ := exec_start_obliging
  have hu : obligingRun.engine.unread = [grantLine] := by
    rw [hk]
    rfl
  obtain ⟨hid, htaken⟩ := obligingRun_exchange
  have hblank : Chatter [10] := ⟨[], by decide +kernel, .inl rfl⟩
  have hcomplete : Line.IsComplete [10] := ⟨[], rfl, List.not_mem_nil⟩
  have hlate : lateLine.IsComplete :=
    isComplete_of_dropLast (by decide +kernel) (by decide +kernel)
  have htranscript : transcript [.applyChanges "changes-1"] obligingRun =
      [exchange "apply_changes" [("changes", .string "changes-1")] obligingRun] :=
    transcript_running _ _ obligingRun_running
  have hn : Interspersed (greetingLine ++ grantLine) obligingRun [.applyChanges "changes-1"]
      noisyLines := by
    generalize exchange "apply_changes" [("changes", .string "changes-1")] obligingRun = x at *
    refine ⟨[greetingLine], [[10], greetingLine], [lateLine, grantLine], [], ?_, ?_, ?_, ?_, rfl⟩
    · rw [ofStream_obliging, hu]
      rfl
    · rw [htranscript, hu, List.flatMap_singleton, htaken]
      rfl
    · exact .insert ⟨hcomplete, hblank⟩ (.keep _ .nil)
    · rw [htranscript]
      have hx : Padded (fun n => n.IsComplete ∧ Skipped 1 n) [grantLine] [lateLine, grantLine] :=
        .insert ⟨hlate, skipped_lateLine⟩ (.keep _ .nil)
      have hc : Noisy [] [x] ([lateLine, grantLine] ++ []) := .cons (by rwa [hid, htaken]) .nil
      exact hc
  have hfinds (output : Bytes) : Finds (soloHost (obliging output)) "/python3"
      ⟨["python3"], obliging output, none⟩ := soloHost_finds _
  obtain ⟨hres, -, -, hobserved⟩ := noise_unnoticed ⟨[], [], none, none, closed⟩
    [.applyChanges "changes-1"] (hfinds _) (hfinds noisyLines.flatten) rfl rfl hn
  rw [hstart] at hres
  rcases he : exec (start (soloHost (obliging noisyLines.flatten)) "/python3")
    ⟨[], [], none, none, closed⟩ with ⟨res, r'⟩
  rw [he] at hres hobserved
  obtain rfl : res = .ok () := hres
  exact ⟨obligingRun, r', hstart, rfl, hobserved⟩

end

end Link

end Relocate.Worker
