import Relocate.SystemError
import Relocate.Text.Line

namespace Relocate.Worker

open Utf8 (Bytes)

/-- How much a worker still takes before it closes its input: whole requests, then some bytes of
the next. -/
structure Closing where
  requests : Nat
  bytes : Nat
  deriving DecidableEq, Repr

structure Inlet where
  closing : Option Closing
  deriving Repr

structure Outlet where
  unread : List Line
  /-- Why reading fails after these lines; without a reason they are all there is. -/
  fault : Option SystemError
  deriving Repr

structure Pipes extends Outlet, Inlet
  deriving Repr

namespace Pipes

def ofStream (output : Bytes) (closing : Option Closing) : Pipes :=
  ⟨⟨Line.ofStream output, none⟩, ⟨closing⟩⟩

structure Written where
  accepted : Bytes
  complete : Bool
  pipes : Pipes

def write (p : Pipes) (request : Bytes) : Written :=
  match p.closing with
  | none => ⟨request, true, p⟩
  | some ⟨n + 1, bytes⟩ => ⟨request, true, { p with closing := some ⟨n, bytes⟩ }⟩
  | some ⟨0, bytes⟩ => ⟨request.take bytes, false, { p with closing := some ⟨0, 0⟩ }⟩

end Pipes

end Relocate.Worker
