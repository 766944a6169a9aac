import CallFlow.Diagram.Line

/-!
Writing lines.

A writer takes bytes and may hold some of them back until it is flushed. Lines are written piece by piece,
and nothing is written after a failure.
-/
namespace CallFlow.Diagram

def utf8 (s : String) : List UInt8 := s.toByteArray.data.toList

structure Writer (m : Type → Type) (ε : Type) where
  put : List UInt8 → ExceptT ε m Unit
  flush : ExceptT ε m Unit

namespace Writer

variable {m : Type → Type} [Monad m] {ε : Type}

def putLine (w : Writer m ε) (l : Line) : ExceptT ε m Unit :=
  forM (l.pieces ++ ["\n"]) fun p => w.put (utf8 p)

def writeLines (w : Writer m ε) (ls : List Line) : ExceptT ε m Unit := do
  forM ls w.putLine
  w.flush

end Writer

end CallFlow.Diagram
