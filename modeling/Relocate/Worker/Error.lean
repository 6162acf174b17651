import Relocate.Failure
import Relocate.Worker.Data

namespace Relocate.Worker

inductive Error
  | notStarted (reason : String)
  | crashed (reason : String)
  /-- The worker answered that it could not do what was asked. -/
  | refused (code message : String) (traceback : Option String)
  | invalidReply (reason : String)
  /-- A line that is no reply at all. -/
  | unreadable (line : String)
  | io (cause : SystemError)
  /-- The data of a reply are not what the request needs. -/
  | data (cause : DataError)
  | noInterpreter (path : String)

namespace Error

def message (w : Wording) : Error → String
  | .notStarted reason => s!"failed to spawn rope worker: {reason}"
  | .crashed reason => s!"rope worker crashed: {reason}"
  | .refused code m _ => s!"{code}: {m}"
  | .invalidReply reason => s!"invalid worker response: {reason}"
  | .unreadable line => "invalid worker response: JSON parse error: " ++ w.json line ++ ": " ++ line
  | .io cause => "IO error: " ++ cause.message
  | .data cause => "JSON error: " ++ cause.message
  | .noInterpreter path => s!"Python interpreter not found at {path}"

def failure (w : Wording) (e : Error) : Failure :=
  match e with
  | .refused code m traceback => .engine code m traceback
  | .notStarted _ | .noInterpreter _ => .environment (e.message w)
  | .io cause => .io cause
  | .crashed _ | .invalidReply _ | .unreadable _ | .data _ => .internal (e.message w)

end Error

end Relocate.Worker
