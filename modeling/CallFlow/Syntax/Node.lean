import CallFlow.Text.Position

/-!
Syntax trees.

A node has the text that it stands for and the field, if any, under which its parent knows it. Text
that does not fit the grammar stands in nodes of status `error`, and a token that the text lacks is a
node of status `missing`.
-/
namespace CallFlow.Syntax

open CallFlow.Text

inductive Status where
  | present
  | missing
  | error
deriving DecidableEq, Repr, Inhabited

structure Node where
  kind : String
  /-- Punctuation and keywords are not named. -/
  named : Bool := true
  field : Option String := none
  status : Status := .present
  start : Position := {}
  stop : Position := {}
  text : String := ""
  children : List Node := []
deriving Repr, Inhabited

structure Tree where
  root : Node
  hasError : Bool := false
deriving Inhabited

namespace Node

def namedChildren (n : Node) : List Node := n.children.filter (·.named)

def child? (n : Node) (field : String) : Option Node :=
  n.children.find? (·.field == some field)

end Node

end CallFlow.Syntax
