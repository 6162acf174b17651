import Relocate.Proofs.Journal
import Relocate.Proofs.Worker.Verdict

namespace Relocate.Worker

open Utf8 (Bytes)

namespace Link

open Relocate.Action

theorem exec_change (f : Link → Link) (r : Run Link) :
    exec (change f) r = (.ok (), { r with engine := f r.engine }) := rfl

theorem isRunning_eq (k : Link) : k.isRunning = k.pipes.isSome := by
  rcases k with ⟨child, inlet, outlet, _, _, _⟩
  cases child <;> cases inlet <;> cases outlet <;> rfl

theorem pipes_of_idle {k : Link} (h : k.isRunning = false) : k.pipes = none := by
  rw [isRunning_eq] at h
  exact Option.isNone_iff_eq_none.mp (Option.isSome_eq_false_iff.mp h)

theorem pipes_of_running {k : Link} (h : k.isRunning = true) : ∃ p, k.pipes = some p := by
  rw [isRunning_eq] at h
  exact Option.isSome_iff_exists.mp h

theorem running_of_pipes {k : Link} {p : Pipes} (h : k.pipes = some p) : k.isRunning = true := by
  rw [isRunning_eq, h]
  rfl

theorem eq_of_pipes {k : Link} {p : Pipes} (h : k.pipes = some p) :
    ∃ child, k = ⟨some child, some p.toInlet, some p.toOutlet, k.nextId, k.version, k.gone⟩ := by
  rcases k with ⟨child, inlet, outlet, _, _, _⟩
  cases child with
  | none => cases h
  | some child =>
    cases inlet with
    | none => cases h
    | some inlet =>
      cases outlet with
      | none => cases h
      | some outlet =>
        obtain rfl := Option.some.inj h
        exact ⟨child, rfl⟩

def piping (k : Link) (p : Pipes) : Link :=
  { k with inlet := k.inlet.map fun _ => p.toInlet, outlet := k.outlet.map fun _ => p.toOutlet }

theorem pipes_piping {k : Link} {p : Pipes} (hp : k.pipes = some p) (q : Pipes) :
    (k.piping q).pipes = some q := by
  obtain ⟨child, hk⟩ := eq_of_pipes hp
  rw [hk]
  rfl

theorem piping_piping (k : Link) (p q : Pipes) : (k.piping p).piping q = k.piping q := by
  simp [piping, Function.comp_def]

@[simp] theorem stopped_piping (k : Link) (p : Pipes) : (k.piping p).stopped = k.stopped := rfl

theorem isRunning_piping {k : Link} {p : Pipes} (hp : k.pipes = some p) (q : Pipes) :
    (k.piping q).isRunning = true := running_of_pipes (pipes_piping hp q)

theorem exec_leave {r : Run Link} {p : Pipes} (hp : r.engine.pipes = some p) (unread : List Line) :
    exec (leave unread) r =
      (.ok (), { r with engine := r.engine.piping { p with unread := unread } }) := by
  obtain ⟨child, hk⟩ := eq_of_pipes hp
  rw [leave, exec_change, hk]
  rfl

theorem exec_release (r : Run Link) :
    exec release r = (.ok (), { r with engine := r.engine.released }) := rfl

/-- What a line leads to for whoever waits for the reply to request `id`, and would wait for `more`. -/
def heed (id : Nat) (line : Line) (more : Act Reply) : Act Reply :=
  match line.text? with
  | none => do
    stop
    throw (.crashed (unanswered (some .notText)))
  | some text =>
    let said := Text.trim text.toList
    if said.isEmpty then more
    else
      match Reply.ofText? said with
      | none => throw (.unreadable (String.ofList said))
      | some reply =>
        if reply.id ≠ some id then do
          Run.log ⟨.worker, .warn, "skipping response for another request",
            [("expected", toString id), ("got", Log.optional reply.id)]⟩
          more
        else if reply.isError then
          throw (.refused (reply.code.getD "") (reply.message.getD "") reply.traceback)
        else return reply

theorem awaitReply_cons (id : Nat) (fault : Option SystemError) (line : Line) (rest : List Line) :
    awaitReply id fault (line :: rest) =
      leave rest >>= fun _ => heed id line (awaitReply id fault rest) := rfl

theorem exec_heed (id : Nat) (line : Line) :
    (∃ v, verdict? id line = some v ∧ ∀ more r, exec (heed id line more) r =
      (v, if isCrash v then { r with engine := r.engine.stopped } else r)) ∨
    (verdict? id line = none ∧ ∃ entries : List Log.Entry, ∀ more r,
      exec (heed id line more) r =
        exec more { r with journal := r.journal ++ entries.map .logged }) := by
  unfold heed verdict? said?
  cases line.text? with
  | none => exact .inl ⟨_, rfl, fun _ _ => rfl⟩
  | some text =>
    simp only [Option.map_some]
    cases Text.trim text.toList with
    | nil => exact .inr ⟨rfl, [], fun more r => by rw [List.map_nil, List.append_nil]; rfl⟩
    | cons c said =>
      simp only [List.isEmpty_cons, Bool.false_eq_true, ↓reduceIte]
      cases Reply.ofText? (c :: said) with
      | none => exact .inl ⟨_, rfl, fun _ _ => rfl⟩
      | some reply =>
        simp only
        split
        · exact .inr ⟨rfl, [_], fun more r => exec_bind_of_ok (exec_log _ r)⟩
        · split
          · exact .inl ⟨_, rfl, fun _ _ => rfl⟩
          · exact .inl ⟨_, rfl, fun _ _ => rfl⟩

/-- Waiting for a reply takes the lines that settle the request, and says what they settle. The
worker is given up just when this is that it is gone. -/
theorem exec_awaitReply (id : Nat) (fault : Option SystemError) (lines : List Line) (r : Run Link)
    (p : Pipes) (hp : r.engine.pipes = some p) :
    ∃ r', exec (awaitReply id fault lines) r = ((settle id fault lines).2, r') ∧ r.Logged r' ∧
      r'.engine = if isCrash (settle id fault lines).2 then r.engine.stopped
        else r.engine.piping { p with unread := lines.drop (settle id fault lines).1.length } := by
  induction lines generalizing r p with
  | nil => exact ⟨_, rfl, .engine r _, rfl⟩
  | cons line rest ih =>
    have hl := exec_leave hp rest
    rw [awaitReply_cons, exec_bind_of_ok hl]
    obtain ⟨v, hv, he⟩ | ⟨hv, entries, he⟩ := exec_heed id line
    · rw [he, settle, decided_of_some hv]
      cases hc : isCrash v with
      | true => exact ⟨_, rfl, .engine r _, by simp⟩
      | false => exact ⟨_, rfl, .engine r _, by simp⟩
    · obtain ⟨r', he', hr', hk'⟩ := ih { r with
          journal := r.journal ++ entries.map .logged
          engine := r.engine.piping { p with unread := rest } } _ (pipes_piping hp _)
      refine ⟨r', ?_, (Run.Logged.entries r entries _).trans hr', ?_⟩
      · rw [he, he', settle, decided_of_none hv]
      · rw [hk', settle, decided_of_none hv, piping_piping]
        rfl

theorem exec_awaitReply_decided {id : Nat} {taken : List Line} {v : Except Error Reply}
    (h : Decides (verdict? id) taken v) (hc : isCrash v = false) :
    ∃ entries : List Log.Entry, ∀ fault rest r p, r.engine.pipes = some p →
      exec (awaitReply id fault (taken ++ rest)) r = (v, { r with
        journal := r.journal ++ entries.map .logged
        engine := r.engine.piping { p with unread := rest } }) := by
  obtain ⟨skipped, last, rfl, hs, hl⟩ := h
  induction skipped with
  | nil =>
    obtain ⟨v', hv, he⟩ | ⟨hv, -⟩ := exec_heed id last
    · obtain rfl := Option.some.inj (hv.symm.trans hl)
      refine ⟨[], fun fault rest r p hp => ?_⟩
      rw [List.nil_append, List.singleton_append, awaitReply_cons,
        exec_bind_of_ok (exec_leave hp rest), he, hc, List.map_nil, List.append_nil]
      rfl
    · rw [hv] at hl
      cases hl
  | cons line skipped ih =>
    obtain ⟨hline, hs⟩ := List.forall_mem_cons.mp hs
    obtain ⟨v', hv, -⟩ | ⟨-, said, he⟩ := exec_heed id line
    · rw [hline] at hv
      cases hv
    · obtain ⟨entries, ih⟩ := ih hs
      refine ⟨said ++ entries, fun fault rest r p hp => ?_⟩
      rw [List.cons_append, List.cons_append, awaitReply_cons,
        exec_bind_of_ok (exec_leave hp _), he, ih _ _ _ _ (pipes_piping hp _), piping_piping,
        List.map_append, List.append_assoc]

def unread (k : Link) : List Line := (k.pipes.map fun p => p.unread).getD []

def fault (k : Link) : Option SystemError := k.pipes.bind fun p => p.fault

theorem unread_of_pipes {k : Link} {p : Pipes} (hp : k.pipes = some p) : k.unread = p.unread := by
  rw [unread, hp]
  rfl

@[simp] theorem unread_stopped (k : Link) : k.stopped.unread = [] := rfl

theorem fault_of_pipes {k : Link} {p : Pipes} (hp : k.pipes = some p) : k.fault = p.fault := by
  rw [fault, hp]
  rfl

end Link

theorem Pipes.write_accepted (p : Pipes) (line : Bytes) : (p.write line).accepted <+: line := by
  unfold write
  split
  · exact List.prefix_rfl
  · exact List.prefix_rfl
  · exact List.take_prefix _ _

theorem Pipes.write_complete {p : Pipes} {line : Bytes} (h : (p.write line).complete = true) :
    (p.write line).accepted = line := by
  unfold write at h ⊢
  split at h
  · rfl
  · rfl
  · cases h

@[simp] theorem Pipes.toOutlet_write (p : Pipes) (line : Bytes) :
    (p.write line).pipes.toOutlet = p.toOutlet := by
  unfold write
  split <;> rfl

/-- What a worker makes of request `id`, written as `line`. -/
def Pipes.answered (p : Pipes) (id : Nat) (line : Bytes) : Except Error Reply :=
  if (p.write line).complete then (settle id p.fault p.unread).2
  else .error (.crashed SystemError.brokenPipe.message)

def Pipes.after (p : Pipes) (id : Nat) (line : Bytes) : Pipes :=
  { (p.write line).pipes with unread := p.unread.drop (settle id p.fault p.unread).1.length }

theorem Pipes.complete_of_answered {p : Pipes} {id : Nat} {line : Bytes}
    (h : isCrash (p.answered id line) = false) : (p.write line).complete = true := by
  unfold answered at h
  cases hw : (p.write line).complete with
  | true => rfl
  | false =>
    rw [hw] at h
    cases h

/-- One request and what came of it. -/
structure Exchange where
  id : Nat
  operation : String
  parameters : Fields
  /-- What the worker has taken of the request. -/
  written : Bytes
  /-- The lines that are gone from the pipe: read for this request or, if the worker was given up
  over it, read by nobody any more. -/
  taken : List Line
  result : Except Error Reply

namespace Exchange

def request (x : Exchange) : Json := Link.request x.id x.operation x.parameters

def line (x : Exchange) : Bytes := Link.requestLine x.id x.operation x.parameters

/-- All that an exchange does to a run, from `r` to `r'`. -/
structure Leads (x : Exchange) (r r' : Run Link) : Prop where
  id : x.id = r.engine.nextId
  nextId : r'.engine.nextId = r.engine.nextId + 1
  lines : r.engine.unread = x.taken ++ r'.engine.unread
  journal : ∃ before after : List Log.Entry,
    r'.journal = r.journal ++ before.map .logged ++ (if x.written = [] then [] else [.sent x.written])
      ++ after.map .logged
  written : x.written <+: x.line
  running : r'.engine.isRunning = !isCrash x.result
  whole : isCrash x.result = false → x.written = x.line
  settled : isCrash x.result = false →
    settle x.id r.engine.fault r.engine.unread = (x.taken, x.result)
  heard : ∀ p, r.engine.pipes = some p → x.result = p.answered x.id x.line ∧
    r'.engine.pipes = if isCrash x.result then none else some (p.after x.id x.line)

end Exchange

namespace Link

open Relocate.Action

def exchange (operation : String) (parameters : Fields) (r : Run Link) : Exchange :=
  let after := exec (send operation parameters) r
  { id := r.engine.nextId
    operation := operation
    parameters := parameters
    written := (sentBytes after.2.journal).drop (sentBytes r.journal).length
    taken := r.engine.unread.take (r.engine.unread.length - after.2.engine.unread.length)
    result := after.1 }

theorem exec_transmit {r : Run Link} {p : Pipes} (hp : r.engine.pipes = some p) (line : Bytes) :
    exec (transmit p line) r =
      (if (p.write line).complete then .ok (p.write line).pipes
        else .error (.crashed SystemError.brokenPipe.message),
      { r with
        journal := r.journal ++
          (if (p.write line).accepted = [] then [] else [.sent (p.write line).accepted])
        engine := if (p.write line).complete then r.engine.piping (p.write line).pipes
          else r.engine.stopped }) := by
  have hk : { r.engine with inlet := r.engine.inlet.map fun _ => (p.write line).pipes.toInlet } =
      r.engine.piping (p.write line).pipes := by
    obtain ⟨child, hk⟩ := eq_of_pipes hp
    rw [hk, piping, Pipes.toOutlet_write]
    rfl
  rw [← stopped_piping r.engine (p.write line).pipes, ← hk]
  unfold transmit
  by_cases ha : (p.write line).accepted = [] <;> by_cases hc : (p.write line).complete = true <;>
    simp [ha, hc] <;> rfl

def numbered (operation : String) (r : Run Link) : Run Link :=
  { r with
    journal := r.journal ++ [.logged ⟨.worker, .debug, "worker request",
      [("op", Text.quoted operation), ("id", toString r.engine.nextId)]⟩]
    engine := { r.engine with nextId := r.engine.nextId + 1 } }

theorem numbered_logged (operation : String) (r : Run Link) : r.Logged (numbered operation r) :=
  (Run.Logged.entry r _).trans (.engine _ _)

theorem exec_send_idle (operation : String) (parameters : Fields) {r : Run Link}
    (hp : r.engine.pipes = none) :
    exec (send operation parameters) r = (.error (.crashed "worker is not running"), r) := by
  rw [send, exec_bind_of_ok (exec_get r)]
  simp only [hp]
  rfl

theorem exec_send_running (operation : String) (parameters : Fields) {r : Run Link} {p : Pipes}
    (hp : r.engine.pipes = some p) :
    exec (send operation parameters) r =
      exec (transmit p (requestLine r.engine.nextId operation parameters) >>= fun p =>
        awaitReply r.engine.nextId p.fault p.unread >>= fun reply =>
          Run.log ⟨.worker, .debug, "worker response ok",
            [("op", Text.quoted operation), ("id", toString r.engine.nextId)]⟩ >>= fun _ =>
              pure reply) (numbered operation r) := by
  rw [send, exec_bind_of_ok (exec_get r)]
  simp only [hp]
  rw [exec_bind_of_ok (exec_change _ r), exec_bind_of_ok (exec_log _ _)]
  rfl

theorem exec_receive (id : Nat) (e : Log.Entry) (r : Run Link) (p : Pipes)
    (hp : r.engine.pipes = some p) :
    ∃ r', exec (awaitReply id p.fault p.unread >>= fun reply =>
        Run.log e >>= fun _ => (pure reply : Act Reply)) r = ((settle id p.fault p.unread).2, r') ∧
      r.Logged r' ∧ r'.engine = if isCrash (settle id p.fault p.unread).2 then r.engine.stopped
        else r.engine.piping
          { p with unread := p.unread.drop (settle id p.fault p.unread).1.length } := by
  obtain ⟨r₁, he, hl, hk⟩ := exec_awaitReply id p.fault p.unread r p hp
  cases hv : (settle id p.fault p.unread).2 with
  | ok reply =>
    rw [hv] at he hk
    refine ⟨_, ?_, hl.trans (.entry r₁ e), hk⟩
    rw [exec_bind_of_ok he, exec_bind_of_ok (exec_log e r₁)]
    rfl
  | error err =>
    rw [hv] at he hk
    exact ⟨r₁, exec_bind_of_error he, hl, hk⟩

/-- Where a request leads: its bytes go out, and then, if the worker took them all, the lines that
settle it are read. -/
theorem exec_send (operation : String) (parameters : Fields) {r : Run Link} {p : Pipes}
    {line : Bytes} (hp : r.engine.pipes = some p)
    (hline : line = requestLine r.engine.nextId operation parameters) :
    ∃ r', exec (send operation parameters) r = (p.answered r.engine.nextId line, r') ∧
      (exec (transmit p line) (numbered operation r)).2.Logged r' ∧
      r'.engine = if isCrash (p.answered r.engine.nextId line)
        then (numbered operation r).engine.stopped
        else (numbered operation r).engine.piping (p.after r.engine.nextId line) := by
  rw [exec_send_running operation parameters hp, ← hline]
  have hp' : (numbered operation r).engine.pipes = some p := hp
  have ht := exec_transmit hp' line
  unfold Pipes.answered Pipes.after
  cases hw : (p.write line).complete with
  | false =>
    simp only [hw, Bool.false_eq_true, ↓reduceIte] at ht ⊢
    refine ⟨_, exec_bind_of_error ht, ?_, rfl⟩
    rw [ht]
    exact .refl _
  | true =>
    simp only [hw, ↓reduceIte] at ht ⊢
    have hq : (exec (transmit p line) (numbered operation r)).2.engine.pipes =
        some (p.write line).pipes := by
      rw [ht]
      exact pipes_piping hp' _
    obtain ⟨r', he, hl, hk⟩ := exec_receive r.engine.nextId
      ⟨.worker, .debug, "worker response ok",
        [("op", Text.quoted operation), ("id", toString r.engine.nextId)]⟩ _ _ hq
    rw [Pipes.toOutlet_write] at he hk
    refine ⟨r', ?_, hl, ?_⟩
    · rw [exec_bind_of_ok ht, Pipes.toOutlet_write]
      rw [ht] at he
      exact he
    · rw [hk, ht, stopped_piping, piping_piping, Pipes.toOutlet_write]

theorem exec_send_decided (operation : String) (parameters : Fields) {id : Nat} {taken : List Line}
    {v : Except Error Reply} (h : Decides (verdict? id) taken v) (hc : isCrash v = false) :
    ∃ es : List Event, ∀ r p rest, r.engine.pipes = some p → r.engine.nextId = id →
      p.unread = taken ++ rest → (p.write (requestLine id operation parameters)).complete = true →
        exec (send operation parameters) r = (v, { r with
          journal := r.journal ++ es
          engine := (numbered operation r).engine.piping
            { (p.write (requestLine id operation parameters)).pipes with unread := rest } }) := by
  obtain ⟨entries, ha⟩ := exec_awaitReply_decided h hc
  obtain ⟨line, hline⟩ : ∃ line, line = requestLine id operation parameters := ⟨_, rfl⟩
  obtain ⟨values, hvalues⟩ : ∃ values : List (String × String),
    values = [("op", Text.quoted operation), ("id", toString id)] := ⟨_, rfl⟩
  refine ⟨.logged ⟨.worker, .debug, "worker request", values⟩ ::
    (if line = [] then [] else [.sent line]) ++ entries.map .logged ++
      match v with
      | .ok _ => [.logged ⟨.worker, .debug, "worker response ok", values⟩]
      | .error _ => [],
    fun r p rest hp hid hu hw => ?_⟩
  subst hid
  rw [← hline] at hw ⊢
  have hp' : (numbered operation r).engine.pipes = some p := hp
  have ht := exec_transmit hp' line
  rw [if_pos hw, if_pos hw, Pipes.write_complete hw] at ht
  have hq : (exec (transmit p line) (numbered operation r)).2.engine.pipes =
      some (p.write line).pipes := by
    rw [ht]
    exact pipes_piping hp' _
  have hr := ha p.fault rest _ _ hq
  rw [ht, piping_piping] at hr
  rw [exec_send_running operation parameters hp, ← hline, exec_bind_of_ok ht, Pipes.toOutlet_write, hu]
  cases v with
  | ok reply =>
    rw [exec_bind_of_ok hr, exec_bind_of_ok (exec_log _ _)]
    simp [numbered, hvalues]
  | error e =>
    rw [exec_bind_of_error hr]
    simp [numbered, hvalues]

theorem sentBytes_transmit {r : Run Link} {p : Pipes} (hp : r.engine.pipes = some p) (line : Bytes) :
    sentBytes (exec (transmit p line) r).2.journal =
      sentBytes r.journal ++ (p.write line).accepted := by
  rw [exec_transmit hp, sentBytes_append]
  by_cases ha : (p.write line).accepted = [] <;> simp [ha, sentBytes]

theorem sentBytes_send (operation : String) (parameters : Fields) {r : Run Link} {p : Pipes}
    {line : Bytes} (hp : r.engine.pipes = some p)
    (hline : line = requestLine r.engine.nextId operation parameters) :
    sentBytes (exec (send operation parameters) r).2.journal =
      sentBytes r.journal ++ (p.write line).accepted := by
  have hp' : (numbered operation r).engine.pipes = some p := hp
  obtain ⟨r', he, hl, -⟩ := exec_send operation parameters hp hline
  rw [he, hl.sentBytes, sentBytes_transmit hp', (numbered_logged operation r).sentBytes]

theorem exchange_leads (operation : String) (parameters : Fields) {r : Run Link}
    (hr : r.engine.isRunning = true) :
    (exchange operation parameters r).Leads r (exec (send operation parameters) r).2 := by
  obtain ⟨p, hp⟩ := pipes_of_running hr
  obtain ⟨line, hline⟩ : ∃ line, line = requestLine r.engine.nextId operation parameters := ⟨_, rfl⟩
  obtain ⟨r', he, hl, hk⟩ := exec_send operation parameters hp hline
  have hp' : (numbered operation r).engine.pipes = some p := hp
  have hb := sentBytes_send operation parameters hp hline
  rw [he] at hb
  obtain ⟨v, hv⟩ : ∃ v, v = p.answered r.engine.nextId line := ⟨_, rfl⟩
  rw [← hv] at he hk
  have hu := unread_of_pipes hp
  have hs : (settle r.engine.nextId p.fault p.unread).1 ++ _ = p.unread := decided_append _ _ _
  -- If the worker is given up, all lines that are left go with it.
  have hlines : ∃ taken, p.unread = taken ++ r'.engine.unread ∧
      (isCrash v = false → settle r.engine.nextId p.fault p.unread = (taken, v)) := by
    cases hc : isCrash v with
    | true =>
      rw [hk, hc, if_pos rfl, unread_stopped]
      exact ⟨p.unread, (List.append_nil _).symm, nofun⟩
    | false =>
      rw [hk, hc, if_neg Bool.false_ne_true, unread_of_pipes (pipes_piping hp' _)]
      refine ⟨_, hs.symm, fun _ => ?_⟩
      have hw := Pipes.complete_of_answered (hv ▸ hc)
      rw [hv, Pipes.answered, if_pos hw]
  obtain ⟨taken, htaken, hsettled⟩ := hlines
  have hx : exchange operation parameters r =
      ⟨r.engine.nextId, operation, parameters, (p.write line).accepted, taken, v⟩ := by
    simp [exchange, he, hb, hu, htaken]
  rw [hx, he]
  refine ⟨rfl, ?_, hu.trans htaken, ?_, ?_, ?_, ?_, ?_, ?_⟩
  · rw [hk]
    split <;> rfl
  · obtain ⟨after, hj⟩ := hl.journal
    obtain ⟨before, hj'⟩ := (numbered_logged operation r).journal
    refine ⟨before, after, ?_⟩
    rw [hj, exec_transmit hp']
    simp only [hj']
  · simpa only [Exchange.line, ← hline] using Pipes.write_accepted p line
  · rw [hk]
    cases hc : isCrash v with
    | true => rfl
    | false => exact isRunning_piping hp' _
  · intro hc
    simpa only [Exchange.line, ← hline] using Pipes.write_complete (Pipes.complete_of_answered (hv ▸ hc))
  · intro hc
    rw [hu, fault_of_pipes hp]
    exact hsettled hc
  · intro p' hp''
    obtain rfl := Option.some.inj (hp.symm.trans hp'')
    simp only [Exchange.line, ← hline]
    refine ⟨hv, ?_⟩
    rw [hk]
    cases hc : isCrash v with
    | true => rfl
    | false => exact pipes_piping hp' _

end Link

end Relocate.Worker
