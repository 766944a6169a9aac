import CallFlow.Syntax.Node

/-!
Type annotations.

Only a name and a name with one dot are shown. Of any other annotation it is known that it was
written.
-/
namespace CallFlow.Functions

open CallFlow.Syntax

inductive Annotation where
  | absent
  | name (identifier : String)
  /-- An attribute of a name, such as `pathlib.Path`. -/
  | dotted (object member : String)
  /-- Anything else, such as `list[int]` or `a.b.c`. -/
  | unrecognised
deriving DecidableEq, Repr, Inhabited

namespace Annotation

def isRendered : Annotation → Bool
  | name _ => true
  | dotted _ _ => true
  | absent => false
  | unrecognised => false

def text : Annotation → String
  | name identifier => identifier
  | dotted object member => object ++ "." ++ member
  | absent => ""
  | unrecognised => ""

def ofAttribute (n : Node) : Annotation :=
  match n.child? "object", n.child? "attribute" with
  | some object, some member =>
    if object.kind = "identifier" then dotted object.text member.text else unrecognised
  | _, _ => unrecognised

def ofMember (base : Annotation) (member : Node) : Annotation :=
  match base with
  | name object =>
    if member.kind = "identifier" then dotted object member.text else unrecognised
  | _ => unrecognised

mutual

/--
The annotation that a node stands for. Around it there may be one node of kind `type`, which counts for what
it holds; `wrapped` says whether that one is still to come.
-/
def read (wrapped : Bool) : Node → Annotation
  | ⟨kind, named, field, status, start, stop, text, children⟩ =>
    if wrapped && kind == "type" then
      match readAll false children with
      | [(_, a)] => a
      | _ => unrecognised
    else if kind = "identifier" then name text
    else if kind = "attribute" then
      ofAttribute ⟨kind, named, field, status, start, stop, text, children⟩
    else if kind = "member_type" then
      match readAll true children with
      | [(_, base), (member, _)] => ofMember base member
      | _ => unrecognised
    else unrecognised

def readAll (wrapped : Bool) : List Node → List (Node × Annotation)
  | [] => []
  | n :: ns =>
    if n.named then (n, read wrapped n) :: readAll wrapped ns else readAll wrapped ns

end

def ofNode (n : Node) : Annotation := read true n

def ofField (field : String) (n : Node) : Annotation :=
  match n.child? field with
  | none => absent
  | some a => ofNode a

end Annotation

end CallFlow.Functions
