import CallFlow.Functions.Builtin
import CallFlow.Functions.Docstring
import CallFlow.Functions.Table
import CallFlow.Syntax.Fault

/-!
The functions of a syntax tree.

A tree is read in pre-order as a list of steps: a definition, or a call by name within the body of a
function. The table comes from taking the steps in turn. What stands in a definition but not in its
body, such as a default value, belongs to the function around it.
-/
namespace CallFlow.Functions

open CallFlow.Syntax

/--
The parameter that a node in a parameter list stands for. Those without a name of their own, such as
`*args`, stand for none.
-/
def Parameter.ofNode? (n : Node) : Option Parameter :=
  if n.kind = "identifier" then some { name := n.text }
  else if n.kind = "typed_parameter" then
    (n.namedChildren.find? (·.kind == "identifier")).map fun name =>
      { name := name.text, annotation := .ofField "type" n }
  else if n.kind = "default_parameter" ∨ n.kind = "typed_default_parameter" then
    ((n.child? "name").filter (·.kind == "identifier")).map fun name =>
      { name := name.text, annotation := .ofField "type" n }
  else none

def parametersOf (n : Node) : List Parameter := n.namedChildren.filterMap Parameter.ofNode?

def Record.ofDefinition (name : String) (n : Node) : Record where
  name := name
  parameters := ((n.child? "parameters").map parametersOf).getD []
  returns := .ofField "return_type" n
  summary := ((n.child? "body").map docSummary).getD ""

inductive Step where
  | define (r : Record)
  | call (caller callee : String)
deriving DecidableEq, Repr, Inhabited

def callee? (n : Node) : Option String :=
  ((n.child? "function").filter fun f => f.kind == "identifier" && !isBuiltin f.text).map (·.text)

def callStep? (scope : Option String) (n : Node) : Option Step :=
  match scope, callee? n with
  | some caller, some callee => some (.call caller callee)
  | _, _ => none

def definedName? (n : Node) : Option String :=
  if n.kind = "function_definition" then (n.child? "name").map (·.text) else none

mutual

/--
The steps of a node; `scope` is the innermost function in whose body it stands.
-/
def steps (scope : Option String) : Node → List Step
  | ⟨kind, named, field, status, start, stop, text, children⟩ =>
    let n : Node := ⟨kind, named, field, status, start, stop, text, children⟩
    match definedName? n with
    | some name => .define (.ofDefinition name n) :: stepsOfDefinition name scope children
    | none =>
      if kind = "call" then (callStep? scope n).toList ++ stepsAll scope children
      else stepsAll scope children

def stepsAll (scope : Option String) : List Node → List Step
  | [] => []
  | n :: ns => steps scope n ++ stepsAll scope ns

/--
The steps of the parts of a definition. Its body is the first of them with that field.
-/
def stepsOfDefinition (name : String) (scope : Option String) : List Node → List Step
  | [] => []
  | n :: ns =>
    if n.field = some "body" then steps (some name) n ++ stepsAll scope ns
    else steps scope n ++ stepsOfDefinition name scope ns

end

/--
Takes a step. A call from a function that is not in the table is lost.
-/
def Step.apply (t : Table) : Step → Table
  | define r => t.insert r
  | call caller callee =>
    match t.pushCall caller callee with
    | .ok t => t
    | .error _ => t

def extract (root : Node) : Table := (steps none root).foldl Step.apply .empty

def extractStrict (t : Tree) : Except ParseError Table := do
  let t ← t.check
  return extract t.root

inductive Notice where
  | recorded (r : Record)
  | replaced (name : String)
  | dropped (caller callee : String) (reason : NotFound)
deriving DecidableEq, Repr, Inhabited

def Step.notices (t : Table) : Step → List Notice
  | define r => .recorded r :: if (t.get? r.name).isSome then [.replaced r.name] else []
  | call caller callee =>
    match t.pushCall caller callee with
    | .ok _ => []
    | .error e => [.dropped caller callee e]

def noticesFrom (t : Table) : List Step → List Notice
  | [] => []
  | s :: ss => s.notices t ++ noticesFrom (s.apply t) ss

def notices (root : Node) : List Notice := noticesFrom .empty (steps none root)

end CallFlow.Functions
