import CallFlow.Diagram.Writer

/-!
A place that may be full.

A sink with a capacity takes bytes until it is full and then fails.
-/
namespace CallFlow.Diagram

structure Sink where
  /-- How many bytes there is room for, if that is bounded. -/
  capacity : Option Nat := none
  content : List UInt8 := []
deriving DecidableEq, Repr, Inhabited

inductive WriteError where
  | full
deriving DecidableEq, Repr, Inhabited

def WriteError.message : WriteError → String
  | full => "failed to write whole buffer"

namespace Sink

def room (s : Sink) (n : Nat) : Nat :=
  match s.capacity with
  | none => n
  | some k => min n (k - s.content.length)

/--
Writes as many of some bytes as there is room for, and tells whether these are all of them.
-/
def write (s : Sink) (bytes : List UInt8) : Sink × Except WriteError Unit :=
  let n := s.room bytes.length
  ({ s with content := s.content ++ bytes.take n },
    if n = bytes.length then .ok () else .error .full)

def writer : Writer (StateM Sink) WriteError where
  put bytes := ExceptT.mk do
    let (s, result) := (← get).write bytes
    set s
    return result
  flush := return ()

def writeLines (s : Sink) (ls : List Line) : Sink × Except WriteError Unit :=
  let (result, s) := (writer.writeLines ls).run.run s
  (s, result)

end Sink

end CallFlow.Diagram
