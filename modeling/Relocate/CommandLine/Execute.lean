import Relocate.Command.ShowImports
import Relocate.CommandLine.Reader
import Relocate.Log.Filter
import Relocate.Session.Engine
import Relocate.Session.Surroundings
import Relocate.Settings

namespace Relocate.CommandLine

open Worker (Link)

structure Outcome where
  exit : Nat
  stdout : String
  stderr : String
  /-- The entries of the log that are shown. -/
  logs : List Log.Entry
  journal : List Event
  deriving Repr

def dispatch (s : Surroundings (Run Link)) (settings : Settings) :
    Request → Action (Run Link) Failure Unit
  | .move m => m.run s
  | .moveModule m => m.run s
  | .showImports name => Command.ShowImports.run s ⟨name, settings.vendorPrefixes⟩

/-- Reads the settings, opens the project, runs the command and lets the worker go. -/
def perform (h : Host) (i : Invocation) : Action (Run Link) Failure Unit := do
  let settings ← (Settings.ofProject h i.project).mapError (Settings.Error.failure h.wording)
  let session ← Session.start h ⟨i.python, settings.interpreterIn i.project⟩
    ⟨i.project, settings.effectiveFolder i.libraryFolder⟩
  let result ← (dispatch (.ofRun h session) settings i.request).attempt
  Session.close h
  result

def printed (journal : List Event) : String :=
  String.join (journal.filterMap fun
    | .reported text => some text
    | .prompted text => some text
    | _ => none)

def complaint (e : Failure) : String :=
  "error: " ++ e.message ++ "\n" ++ e.traceback?.elim "" fun t => Text.endTrimmed t ++ "\n"

def shown (f : Log.Filter) (journal : List Event) : List Log.Entry :=
  journal.filterMap fun
    | .logged e => if f.shows e then some e else none
    | _ => none

def ended (r : Except Failure Unit) (f : Log.Filter) (journal : List Event) : Outcome :=
  let logs := shown f journal
  match r with
  | .ok () => ⟨0, printed journal, "", logs, journal⟩
  | .error e =>
    if e.isGuard then ⟨e.status.code, printed journal ++ e.message ++ "\n", "", logs, journal⟩
    else ⟨e.status.code, printed journal, complaint e, logs, journal⟩

def stopped : Stop → Outcome
  | .help text => ⟨0, text, "", [], []⟩
  | .nothing => ⟨2, "", about, [], []⟩
  | .version => ⟨0, version ++ "\n", "", [], []⟩
  | .misuse m => ⟨2, "", m.message, [], []⟩

def execute (h : Host) (input : Utf8.Bytes) (words : List String) : Outcome :=
  match read h words with
  | .error stop => stopped stop
  | .ok i =>
    let (r, run) := (perform h i).run.run ⟨[], Line.ofStream input, none, none, Link.closed⟩
    ended r (.choose (h.environment? "RUST_LOG") i.level) run.journal

end Relocate.CommandLine
