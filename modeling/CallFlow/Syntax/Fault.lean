import CallFlow.Syntax.Node

/-!
What is wrong with a text.

The faults of a tree are its missing and erroneous nodes and the statements of Python 2, in the order
in which the nodes begin. `Tree.check` accepts a tree without faults.
-/
namespace CallFlow.Syntax

open CallFlow.Text

inductive Cause where
  | missing (kind : String)
  | error
  | printStatement
  | execStatement
deriving DecidableEq, Repr, Inhabited

def Cause.message : Cause → String
  | missing kind => "missing " ++ kind
  | error => "syntax error"
  | printStatement => "python 2 print statement"
  | execStatement => "python 2 exec statement"

/--
Why a node is at fault, if it is. What came of the text counts more than the kind of node.
-/
def Node.cause? (n : Node) : Option Cause :=
  match n.status with
  | .missing => some (.missing n.kind)
  | .error => some .error
  | .present =>
    if n.kind == "print_statement" then some .printStatement
    else if n.kind == "exec_statement" then some .execStatement
    else none

def maxNumber : Nat := 4294967295

/--
The number of the line or column with `n` before it.
-/
def oneBased (n : Nat) : Nat := min (n + 1) maxNumber

structure Fault where
  start : Nat
  stop : Nat
  line : Nat
  column : Nat
  context : String
  cause : Cause
deriving DecidableEq, Repr, Inhabited

/--
A text of more than 50 characters is cut to 47 and three dots.
-/
def abbreviate (s : String) : String :=
  if s.length > 50 then String.ofList (s.toList.take 47) ++ "..." else s

def Fault.ofNode (n : Node) (cause : Cause) : Fault where
  start := n.start.byte
  stop := n.stop.byte
  line := oneBased n.start.row
  column := oneBased n.start.column
  context := abbreviate n.text
  cause := cause

def Node.fault? (n : Node) : Option Fault := n.cause?.map (Fault.ofNode n)

mutual

def Node.faults : Node → List Fault
  | ⟨kind, named, field, status, start, stop, text, children⟩ =>
    (Node.fault? ⟨kind, named, field, status, start, stop, text, children⟩).toList ++
      faultsAll children

def Node.faultsAll : List Node → List Fault
  | [] => []
  | n :: ns => n.faults ++ faultsAll ns

end

def Tree.faults (t : Tree) : List Fault := t.root.faults

def Tree.hasFaults (t : Tree) : Bool := t.hasError || !t.faults.isEmpty

structure ParseError where
  line : Nat
  column : Nat
  cause : Cause
  count : Nat
deriving DecidableEq, Repr, Inhabited

def ParseError.message (e : ParseError) : String :=
  "failed to parse python source at line " ++ toString e.line ++ ", column " ++
    toString e.column ++ ": " ++ e.cause.message

/--
Accepts a tree without faults. An error that no node shows is reported at the start.
-/
def Tree.check (t : Tree) : Except ParseError Tree :=
  match t.faults with
  | f :: fs => .error ⟨f.line, f.column, f.cause, fs.length + 1⟩
  | [] => if t.hasError then .error ⟨1, 1, .error, 1⟩ else .ok t

end CallFlow.Syntax
