import CallFlow.Log.Level
import CallFlow.Text.Line
import CallFlow.Text.Word

/-!
Filters for events.

A filter is a list of directives with commas between them. A directive sets the level for all events,
or for those of the parts of the program whose names begin with its target. The longest such target
counts, and of equal ones the last.
-/
namespace CallFlow.Log

open CallFlow.Text

structure Directive where
  target : Option String := none
  level : Level := .trace
deriving DecidableEq, Repr, Inhabited

inductive FilterError where
  | directive
  | level
deriving DecidableEq, Repr, Inhabited

def FilterError.message : FilterError → String
  | directive => "invalid filter directive"
  | level =>
    "error parsing level filter: expected one of \"off\", \"error\", \"warn\", \"info\", " ++
      "\"debug\", \"trace\", or a number 0-5"

def beginsDirective (c : Char) : Bool :=
  c == '-' || c == ':' || c == '_' || c.isAlphanum ||
    (c.toNat ≥ 128 && (isWordStart c || isWordPart c))

/--
Reads one directive: a level, a target, or both with an equals sign between them. A target without a level
stands for all its events.
-/
def Directive.parse (s : String) : Except FilterError Directive :=
  let cs := s.toList
  let target := cs.takeWhile (· != '=')
  if !((cs.dropWhile isBlank).head?.any beginsDirective) || target.contains '[' then
    .error .directive
  else match cs.dropWhile (· != '=') with
    | [] =>
      match Level.ofString? s with
      | some level => .ok { level }
      | none => .ok { target := some s }
    | [_] => .ok { target := some (String.ofList target) }
    | _ :: level =>
      match Level.ofString? (String.ofList level) with
      | some level => .ok { target := some (String.ofList target), level }
      | none => .error .level

structure Filter where
  directives : List Directive := []
deriving DecidableEq, Repr, Inhabited

namespace Filter

def parse (s : String) : Except FilterError Filter := do
  let parts := ((pieces ',' s.toList).map String.ofList).filter (· ≠ "")
  return { directives := ← parts.mapM Directive.parse }

def fit? (target : String) (d : Directive) : Option Nat :=
  match d.target with
  | none => some 0
  | some t => if t.toList.isPrefixOf target.toList then some (t.length + 1) else none

def levelFor (f : Filter) (target : String) : Level :=
  (f.directives.foldl (fun (best : Nat × Level) d =>
    match fit? target d with
    | some n => if best.1 ≤ n then (n, d.level) else best
    | none => best) (0, .off)).2

def allows (f : Filter) (target : String) (level : Level) : Bool :=
  level.rank ≤ (f.levelFor target).rank

end Filter

end CallFlow.Log
