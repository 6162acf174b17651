import Relocate.Host
import Relocate.Text.Blank
import Relocate.Worker.Error

namespace Relocate.Worker

/-- The process of a worker, and what the system was asked to do about it. -/
structure Child where
  program : String
  /-- It was ended by force. -/
  killed : Bool
  /-- Its end was waited for. -/
  waited : Bool
  deriving DecidableEq, Repr

namespace Child

def spawned (program : String) : Child := ⟨program, false, false⟩

def kill (c : Child) : Child := { c with killed := true }

def wait (c : Child) : Child := { c with waited := true }

end Child

structure Link where
  /-- The process, until it is given up or let go. -/
  child : Option Child
  inlet : Option Inlet
  outlet : Option Outlet
  nextId : Nat
  /-- What the worker said of itself in its greeting. -/
  version : Option String
  /-- The process, once it is given up or let go. -/
  gone : Option Child
  deriving Repr

namespace Link

def closed : Link := ⟨none, none, none, 1, none, none⟩

def isRunning (k : Link) : Bool := k.child.isSome && k.inlet.isSome && k.outlet.isSome

def pipes (k : Link) : Option Pipes :=
  match k.child, k.inlet, k.outlet with
  | some _, some inlet, some outlet => some ⟨outlet, inlet⟩
  | _, _, _ => none

/-- Takes the process out of the link, if it is there, and sees to it that it ends. -/
def dismiss (care : Child → Child) (k : Link) : Link :=
  { k with child := none, gone := (k.child.map care).or k.gone }

def severed (k : Link) : Link := { k with inlet := none, outlet := none }

/-- The worker is gone, or given up: it is killed, and its end is waited for. -/
def stopped (k : Link) : Link := (k.dismiss fun c => c.kill.wait).severed

/-- The worker is let go: its pipes are closed, which ends it, and its end is waited for. -/
def released (k : Link) : Link := k.severed.dismiss Child.wait

abbrev Act (α : Type) := Action (Run Link) Error α

def change (f : Link → Link) : Act Unit := modify fun r => { r with engine := f r.engine }

def stop : Act Unit := change stopped

def leave (unread : List Line) : Act Unit :=
  change fun k => { k with outlet := k.outlet.map fun o => { o with unread := unread } }

def ungreeted : Option SystemError → String
  | none => "worker exited before sending ready message"
  | some e => "error reading from worker: " ++ e.message

/-- Reads lines until one greets or tells of an error. -/
def awaitGreeting (fault : Option SystemError) : List Line → Act Unit
  | [] => do
    stop
    throw (.notStarted (ungreeted fault))
  | line :: rest => do
    leave rest
    match line.text? with
    | none =>
      stop
      throw (.notStarted (ungreeted (some .notText)))
    | some text =>
      let said := Text.trim text.toList
      if said.isEmpty then awaitGreeting fault rest
      else
        match (Greeting.ofText? said).filter fun g => g.status = "ready" with
        | some greeting =>
          Run.log ⟨.worker, .debug, "rope worker ready",
            [("worker", greeting.version), ("rope", greeting.libraryVersion)]⟩
          change fun k => { k with version := some greeting.version }
        | none =>
          match (Reply.ofText? said).filter Reply.isError with
          | some reply =>
            stop
            throw (.notStarted (reply.message.getD "unknown error"))
          | none =>
            Run.log ⟨.worker, .warn, "ignoring unexpected worker output before ready",
              [("line", Text.quoted (String.ofList said))]⟩
            awaitGreeting fault rest

/-- Starts a worker, once its script is in place, and waits for its greeting. -/
def start (h : Host) (path : String) : Act Unit := do
  if !h.exists? path then throw (.noInterpreter path)
  h.script.mapError Error.io
  let i ← (h.launch path .worker).mapError fun e => .notStarted e.message
  Run.log ⟨.worker, .info, "spawned rope worker", [("pid", "?"), ("python", path)]⟩
  change fun _ =>
    ⟨some (.spawned path), some i.worker.toInlet, some i.worker.toOutlet, 1, none, none⟩
  awaitGreeting i.worker.fault i.worker.unread

/-- A request: its number, what is asked, and the parameters, which may replace these two. -/
def request (id : Nat) (operation : String) (parameters : Fields) : Json :=
  .object (Fields.ofList (("id", .int id) :: ("op", .string operation) :: parameters))

def requestLine (id : Nat) (operation : String) (parameters : Fields) : Utf8.Bytes :=
  Utf8.encode (String.ofList ((request id operation parameters).write ++ ['\n']))

def unanswered : Option SystemError → String
  | none => "unexpected EOF"
  | some e => e.message

/-- Reads lines until one answers request `id`. -/
def awaitReply (id : Nat) (fault : Option SystemError) : List Line → Act Reply
  | [] => do
    stop
    throw (.crashed (unanswered fault))
  | line :: rest => do
    leave rest
    match line.text? with
    | none =>
      stop
      throw (.crashed (unanswered (some .notText)))
    | some text =>
      let said := Text.trim text.toList
      if said.isEmpty then awaitReply id fault rest
      else
        match Reply.ofText? said with
        | none => throw (.unreadable (String.ofList said))
        | some reply =>
          if reply.id ≠ some id then do
            Run.log ⟨.worker, .warn, "skipping response for another request",
              [("expected", toString id), ("got", Log.optional reply.id)]⟩
            awaitReply id fault rest
          else if reply.isError then
            throw (.refused (reply.code.getD "") (reply.message.getD "") reply.traceback)
          else return reply

/-- Writes a request to the worker. What the worker takes of it is an event of the run. -/
def transmit (p : Pipes) (line : Utf8.Bytes) : Act Pipes := do
  let w := p.write line
  if !w.accepted.isEmpty then Run.record (.sent w.accepted)
  change fun k => { k with inlet := k.inlet.map fun _ => w.pipes.toInlet }
  if w.complete then return w.pipes
  else do
    stop
    throw (.crashed SystemError.brokenPipe.message)

def send (operation : String) (parameters : Fields) : Act Reply := do
  let k := (← get).engine
  match k.pipes with
  | none => throw (.crashed "worker is not running")
  | some p =>
    change fun k => { k with nextId := k.nextId + 1 }
    let values := [("op", Text.quoted operation), ("id", toString k.nextId)]
    Run.log ⟨.worker, .debug, "worker request", values⟩
    let p ← transmit p (requestLine k.nextId operation parameters)
    let reply ← awaitReply k.nextId p.fault p.unread
    Run.log ⟨.worker, .debug, "worker response ok", values⟩
    return reply

def release : Act Unit := change released

/-- Lets the worker go. Whether it answers the last request does not matter. -/
def shutdown : Act Unit := do
  if (← get).engine.isRunning then
    let _ ← (send "shutdown" []).attempt
    release
    Run.log ⟨.worker, .debug, "rope worker shut down", []⟩

end Link

end Relocate.Worker
