import CallFlow.Diagram.Line
import CallFlow.Functions.Table

/-!
The diagram of a table.

The main function is the one with the most calls. Its calls come first and those of the other
functions after them, in the order of the table. Each call gives a block of lines, which depends on
the two functions alone.
-/
namespace CallFlow.Diagram

open CallFlow.Functions

inductive BuildError where
  | noMainFunction
deriving DecidableEq, Repr, Inhabited

def BuildError.message : BuildError → String
  | noMainFunction => "no main function found"

inductive Policy where
  | truncate
  | keep
deriving DecidableEq, Repr, Inhabited

inductive Phase where
  | complete
  /-- An unknown function ended it, with `skipped` calls left. -/
  | truncated (callee : String) (skipped : Nat)
deriving DecidableEq, Repr, Inhabited

end CallFlow.Diagram

namespace CallFlow

open CallFlow.Diagram

structure Diagram where
  main : String
  lines : List Line
  phase : Phase
deriving DecidableEq, Repr, Inhabited

end CallFlow

namespace CallFlow.Diagram

open CallFlow.Functions

def text (d : Diagram) : String := render d.lines

def moreCalls (best? : Option Record) (r : Record) : Option Record :=
  match best? with
  | none => some r
  | some best => if best.callCount < r.callCount then some r else some best

/--
The first of the records with the most calls.
-/
def selectMain (t : Table) : Except BuildError Record :=
  match t.records.foldl moreCalls none with
  | some r => .ok r
  | none => .error .noMainFunction

/--
The lines of one call. What follows the call itself is known of functions in the table only.
-/
def block (t : Table) (caller callee : String) : List Line :=
  match t.get? callee with
  | none => [.call caller callee ""]
  | some r =>
    .call caller callee (renderParameters r.parameters) ::
      ((if r.returns.isRendered then [.reply caller callee r.returns.text] else []) ++
        (if r.summary = "" then [] else [.note callee r.summary]))

def blocks (t : Table) (caller : String) (callees : List String) : List Line :=
  callees.flatMap (block t caller)

def listed (t : Table) (policy : Policy) : List String → List String × Phase
  | [] => ([], .complete)
  | c :: cs =>
    if policy = .truncate ∧ (t.get? c).isNone then ([c], .truncated c cs.length)
    else
      let (rest, phase) := listed t policy cs
      (c :: rest, phase)

def otherBlocks (t : Table) (main : String) : List Line :=
  (t.records.filter (·.name != main)).flatMap fun r => blocks t r.name r.calls

def buildFrom (t : Table) (policy : Policy) (main : Record) : Diagram where
  main := main.name
  lines := blocks t main.name (listed t policy main.calls).1 ++ otherBlocks t main.name
  phase := (listed t policy main.calls).2

def build (t : Table) (policy : Policy) : Except BuildError Diagram :=
  (selectMain t).map (buildFrom t policy)

end CallFlow.Diagram
