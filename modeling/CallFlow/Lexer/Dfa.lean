import CallFlow.Lexer.Nfa
import Std.Data.HashMap

/-!
Deterministic automata for token patterns.

A state is a set of nodes of the nondeterministic automaton, and whether the end of the text is
looked for. The longest match wins, except that a token is not continued where stopping is
preferred.
-/
namespace CallFlow.Lexer

inductive Found where
  | token (t : Nat)
  | stop
deriving DecidableEq, Inhabited, Repr

structure DfaState where
  accept : Option Found := none
  onEnd : Option Nat := none
  /-- The state behind each letter, and whether the letter is a blank before the token. -/
  next : Array (Option (Nat × Bool)) := #[]
deriving Inhabited

structure Dfa where
  sets : Array (List Nat × Bool) := #[]
  ids : Std.HashMap (List Nat × Bool) Nat := {}
  states : Array DfaState := #[]
deriving Inhabited

namespace Dfa

def stateOf (d : Dfa) (key : List Nat × Bool) : Dfa × Nat :=
  match d.ids[key]? with
  | some i => (d, i)
  | none =>
    ({ d with sets := d.sets.push key, ids := d.ids.insert key d.sets.size }, d.sets.size)

def best (m : Nfa) (ts : List Nat) : Option Nat :=
  ts.foldl (fun b t => match b with
    | some u => if m.prefers u t then b else some t
    | none => some t) none

def fill (m : Nfa) (d : Dfa) (ids : List Nat) (atEnd : Bool) : Dfa :=
  let done := best m (m.completions ids)
  let inBlanks := m.inBlanks ids
  let (d, onEnd) := if atEnd then
      let (d, i) := d.stateOf ([], false)
      (d, some i)
    else (d, none)
  let ts := (m.transitions ids).filter fun t => match done with
    | some u => m.goesOn t u inBlanks
    | none => true
  let (d, next) := ts.foldl (fun (d, next) t =>
    let (d, i) := d.stateOf (m.closure t.targets, atEnd && t.isBlank)
    (d, (List.range Letter.count).foldl (fun (next : Array (Option (Nat × Bool))) a =>
      if t.letters.contains a then next.setIfInBounds a (some (i, t.isBlank)) else next) next))
    (d, Array.replicate Letter.count none)
  let accept := match done with
    | some t => some (.token t)
    | none => if ids.isEmpty then some .stop else none
  { d with states := d.states.push { accept, onEnd, next } }

/--
Fills in the states that are only sets so far. Each set comes up once.
-/
def run (m : Nfa) : Nat → Dfa → Dfa
  | 0, d => d
  | fuel + 1, d => match d.sets[d.states.size]? with
    | none => d
    | some (ids, atEnd) => run m fuel (fill m d ids atEnd)

def addTokens (m : Nfa) (d : Dfa) (tokens : List Nat) (atEnd : Bool) : Dfa × Nat :=
  let (d, i) := d.stateOf (m.closure (tokens.map fun t => m.starts.getD t 0), atEnd)
  (run m (Nat.pow 2 (m.nodes.size + 1)) d, i)

end Dfa

end CallFlow.Lexer
