import CallFlow.Automaton.Modes
import CallFlow.Lexer.Layout

/-!
The trees that the parser builds.

They hold every symbol of the grammar, the hidden ones too. Each tree knows what it costs in errors,
so that of two readings of a text the one with fewer errors can be kept.
-/
namespace CallFlow.Parser

open CallFlow.Text CallFlow.Automaton CallFlow.Lexer

/-! What errors cost. -/

def costOfRecovery : Nat := 500
def costOfMissing : Nat := 110
def costOfSkippedTree : Nat := 100
def costOfSkippedByte : Nat := 1
def costOfSkippedLine : Nat := 30

structure Info where
  symbol : SymCode
  labels : Nat := 0
  /-- Where the blanks before it begin. -/
  before : Place
  start : Place
  stop : Place
  /-- It may stand anywhere and is not counted among the children of a production. -/
  extra : Bool := false
  missing : Bool := false
  /-- It is a word that is spelled like a keyword. -/
  isKeyword : Bool := false
  layout : Option LayoutState := none
  /-- Whether that differs from what it remembered before. -/
  changesLayout : Bool := false
  errorCost : Nat := 0
  dynamic : Int := 0
  visibleChildren : Nat := 0
  visibleDescendants : Nat := 0
deriving Inhabited

inductive Subtree where
  | mk (info : Info) (children : List Subtree)
deriving Inhabited

namespace Subtree

def info : Subtree → Info
  | mk i _ => i

def children : Subtree → List Subtree
  | mk _ cs => cs

def symbol (t : Subtree) : SymCode := t.info.symbol
def extra (t : Subtree) : Bool := t.info.extra
def dynamic (t : Subtree) : Int := t.info.dynamic

def errorCost (t : Subtree) : Nat :=
  if t.info.missing then costOfMissing + costOfRecovery else t.info.errorCost

def totalBytes (t : Subtree) : Nat := t.info.stop.byte - t.info.before.byte

def totalRows (t : Subtree) : Nat := t.info.stop.row - t.info.before.row

def setExtra (b : Bool) : Subtree → Subtree
  | mk i cs => mk { i with extra := b } cs

def setSymbol (c : SymCode) : Subtree → Subtree
  | mk i cs => mk { i with symbol := c } cs

def addDynamic (d : Int) : Subtree → Subtree
  | mk i cs => mk { i with dynamic := i.dynamic + d } cs

def isError (a : Automaton) (t : Subtree) : Bool := t.symbol == a.errorSymbol

def isVisible (a : Automaton) (t : Subtree) : Bool := (a.kind t.symbol).visible

def nodeCount (a : Automaton) (t : Subtree) : Nat :=
  t.info.visibleDescendants + (if t.isVisible a then 1 else 0) +
    (if t.symbol == a.errorRepeat then 1 else 0)

def addChild (a : Automaton) (labels : Labels) (acc : Info × Nat) (child : Subtree) : Info × Nat :=
  let (i, index) := acc
  let inError := i.symbol == a.errorSymbol || i.symbol == a.errorRepeat
  let leaf := child.children.isEmpty
  let visible := child.isVisible a
  let cost := if child.symbol == a.errorRepeat then 0 else child.errorCost
  let skipped :=
    if inError && !child.extra && !(child.isError a && leaf) then
      if visible then costOfSkippedTree
      else costOfSkippedTree * child.info.visibleChildren
    else 0
  let renamed := !child.extra && child.symbol != a.numbering.stop &&
    (labels.renames.getD index none).isSome
  let shown := renamed || visible
  ({ i with
      errorCost := i.errorCost + cost + skipped
      dynamic := i.dynamic + child.dynamic
      visibleDescendants := i.visibleDescendants + child.info.visibleDescendants +
        (if shown then 1 else 0)
      visibleChildren := i.visibleChildren +
        (if shown then 1 else child.info.visibleChildren) },
   if child.extra then index else index + 1)

/--
A tree with children; without any it stands at `place`.
-/
def node (a : Automaton) (symbol : SymCode) (labels : Nat) (place : Place)
    (children : List Subtree) : Subtree :=
  let (before, start) := match children.head? with
    | some c => (c.info.before, c.info.start)
    | none => (place, place)
  let stop := match children.getLast? with
    | some c => c.info.stop
    | none => place
  let (i, _) := children.foldl (addChild a (a.labels.getD labels {}))
    ({ symbol, labels, before, start, stop }, 0)
  if symbol == a.errorSymbol || symbol == a.errorRepeat then
    mk { i with errorCost := i.errorCost + costOfRecovery +
          costOfSkippedByte * (stop.byte - start.byte) +
          costOfSkippedLine * (stop.row - start.row) } children
  else mk i children

def splitTrailing (ts : List Subtree) : List Subtree × List Subtree :=
  let r := ts.reverse
  ((r.dropWhile extra).reverse, (r.takeWhile extra).reverse)

mutual

def compare (a : Automaton) : Subtree → Subtree → Ordering
  | mk i cs, mk j ds =>
    match Ord.compare (a.order.getD i.symbol 0) (a.order.getD j.symbol 0) with
    | .eq => match Ord.compare cs.length ds.length with
      | .eq => compareAll a cs ds
      | o => o
    | o => o

def compareAll (a : Automaton) : List Subtree → List Subtree → Ordering
  | c :: cs, d :: ds => match compare a c d with
    | .eq => compareAll a cs ds
    | o => o
  | _, _ => .eq

end

/--
Whether the right one of two readings is better: fewer errors, then the higher dynamic precedence, then the
order of the trees.
-/
def prefersRight (a : Automaton) (left right : Subtree) : Bool :=
  if right.errorCost != left.errorCost then right.errorCost < left.errorCost
  else if right.dynamic != left.dynamic then left.dynamic < right.dynamic
  else if left.errorCost > 0 then true
  else compare a left right == .gt

def equivalent : Option Subtree → Option Subtree → Bool
  | none, none => true
  | some l, some r =>
    l.symbol == r.symbol &&
    ((l.errorCost > 0 && r.errorCost > 0) ||
      (l.info.start.byte - l.info.before.byte == r.info.start.byte - r.info.before.byte &&
        l.info.stop.byte - l.info.start.byte == r.info.stop.byte - r.info.start.byte &&
        l.children.length == r.children.length && l.extra == r.extra &&
        l.info.layout == r.info.layout))
  | _, _ => false

end Subtree

end CallFlow.Parser
