import CallFlow.Functions.Annotation

/-!
Records of functions.

A record tells what is known of one function: its signature, the first line of its docstring, and
the functions that it calls by name, in order.
-/
namespace CallFlow.Functions

structure Parameter where
  name : String
  annotation : Annotation := .absent
deriving DecidableEq, Repr, Inhabited

def Parameter.text (p : Parameter) : String :=
  if p.annotation.isRendered then p.name ++ " (" ++ p.annotation.text ++ ")" else p.name

def renderParameters (ps : List Parameter) : String :=
  ", ".intercalate (ps.map Parameter.text)

structure Record where
  name : String
  parameters : List Parameter := []
  returns : Annotation := .absent
  summary : String := ""
  /-- The functions called, in order and as often as they are called. -/
  calls : List String := []
deriving DecidableEq, Repr, Inhabited

namespace Record

def callCount (r : Record) : Nat := r.calls.length

def pushCall (r : Record) (callee : String) : Record := { r with calls := r.calls ++ [callee] }

@[simp]
theorem pushCall_name (r : Record) (callee : String) : (r.pushCall callee).name = r.name := rfl

end Record

end CallFlow.Functions
