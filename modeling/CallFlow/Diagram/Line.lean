/-!
The lines of a sequence diagram.
-/
namespace CallFlow.Diagram

inductive Line where
  | call (caller callee parameters : String)
  | reply (caller callee annotation : String)
  | note (participant text : String)
deriving DecidableEq, Repr, Inhabited

namespace Line

def pieces : Line → List String
  | call caller callee parameters => [caller, "->", callee, ": ", parameters]
  | reply caller callee annotation => [caller, "<--", callee, ": ", annotation]
  | note participant text => ["note over ", participant, ":", text]

def text (l : Line) : String := String.join l.pieces

end Line

def render (ls : List Line) : String := String.join (ls.map fun l => l.text ++ "\n")

end CallFlow.Diagram
