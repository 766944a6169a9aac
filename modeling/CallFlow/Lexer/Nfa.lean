import CallFlow.Lexer.Pattern

/-!
Nondeterministic automata for token patterns.

All tokens share one automaton; each has a start node of its own. Blanks may come before a token
unless it is immediate. A set of nodes is a sorted list without splits.
-/
namespace CallFlow.Lexer

inductive NfaNode where
  | accept (t : Nat)
  | advance (letters : LetterSet) (target : Nat) (prec : Int) (isBlank : Bool)
  | split (l r : Nat)
deriving Inhabited

structure Nfa where
  nodes : Array NfaNode := #[]
  owners : Array Nat := #[]
  starts : Array Nat := #[]
  tokens : Array Token := #[]
deriving Inhabited

namespace Nfa

def push (m : Nfa) (owner : Nat) (x : NfaNode) : Nfa × Nat :=
  ({ m with nodes := m.nodes.push x, owners := m.owners.push owner }, m.nodes.size)

def addPattern (owner : Nat) (prec : Int) (isBlank : Bool) :
    Pattern → Nat → Nfa → Nfa × Nat
  | .empty, next, m => (m, next)
  | .letters s, next, m => m.push owner (.advance s next prec isBlank)
  | .seq l r, next, m =>
    let (m, mid) := addPattern owner prec isBlank r next m
    addPattern owner prec isBlank l mid m
  | .alt l r, next, m =>
    let (m, a) := addPattern owner prec isBlank l next m
    let (m, b) := addPattern owner prec isBlank r next m
    if a == b then (m, a) else m.push owner (.split a b)
  | .many1 p, next, m =>
    let (m, again) := m.push owner (.split next next)
    let (m, start) := addPattern owner prec isBlank p again m
    ({ m with nodes := m.nodes.setIfInBounds again (.split start next) }, start)

def addToken (blanks : Pattern) (m : Nfa) (t : Token) : Nfa :=
  let owner := m.tokens.size
  let (m, last) := m.push owner (.accept owner)
  let (m, start) := addPattern owner t.prec false t.pattern last m
  let (m, start) :=
    if t.immediate then (m, start) else addPattern owner 0 true (.many blanks) start m
  { m with starts := m.starts.push start, tokens := m.tokens.push t }

def ofTokens (blanks : Pattern) (tokens : Array Token) : Nfa :=
  tokens.foldl (addToken blanks) {}

def insertSorted (a : Nat) : List Nat → List Nat
  | [] => [a]
  | b :: bs => if a < b then a :: b :: bs else if a == b then b :: bs else b :: insertSorted a bs

/--
Follows the splits from the pending nodes on. No node is followed twice and each adds at most two pending
ones, so twice the number of nodes is `fuel` enough.
-/
def expand (m : Nfa) : Nat → List Nat → List Nat → List Nat → List Nat
  | 0, _, _, acc => acc
  | _, [], _, acc => acc
  | fuel + 1, i :: pending, seen, acc =>
    if seen.contains i then expand m fuel pending seen acc
    else match m.nodes.getD i default with
      | .split a b => expand m fuel (a :: b :: pending) (i :: seen) acc
      | _ => expand m fuel pending (i :: seen) (insertSorted i acc)

def closure (m : Nfa) (ids : List Nat) : List Nat :=
  m.expand (2 * m.nodes.size + ids.length) ids [] []

def ownersOf (m : Nfa) (ids : List Nat) : List Nat :=
  ids.foldr (fun i acc => insertSorted (m.owners.getD i 0) acc) []

structure Transition where
  letters : LetterSet
  isBlank : Bool
  prec : Int
  /-- The nodes behind it, before the splits among them are followed. -/
  targets : List Nat
deriving Inhabited

def joinTransition (new : Transition) : List Transition → List Transition
  | [] => if new.letters.isEmpty then [] else [new]
  | t :: ts =>
    let both := t.letters.inter new.letters
    if both.isEmpty then t :: joinTransition new ts
    else
      let joined : Transition :=
        { letters := both
          isBlank := t.isBlank && new.isBlank
          prec := max t.prec new.prec
          targets := new.targets.foldl (fun acc i => insertSorted i acc) t.targets }
      let old := t.letters.diff both
      let rest := joinTransition { new with letters := new.letters.diff both } ts
      if old.isEmpty then joined :: rest else joined :: { t with letters := old } :: rest

def transitions (m : Nfa) (ids : List Nat) : List Transition :=
  ids.foldl (fun ts i => match m.nodes.getD i default with
    | .advance letters target prec isBlank => joinTransition ⟨letters, isBlank, prec, [target]⟩ ts
    | _ => ts) []

def completions (m : Nfa) (ids : List Nat) : List Nat :=
  ids.filterMap fun i => match m.nodes.getD i default with
    | .accept t => some t
    | _ => none

def inBlanks (m : Nfa) (ids : List Nat) : Bool :=
  ids.any fun i => match m.nodes.getD i default with
    | .advance _ _ _ isBlank => isBlank
    | _ => false

def prec (m : Nfa) (t : Nat) : Int := (m.tokens.getD t default).prec
def rank (m : Nfa) (t : Nat) : Nat := (m.tokens.getD t default).rank

def prefers (m : Nfa) (a b : Nat) : Bool :=
  m.prec b < m.prec a || (m.prec a == m.prec b &&
    (m.rank b < m.rank a || (m.rank a == m.rank b && a < b)))

def goesOn (m : Nfa) (t : Transition) (done : Nat) (inBlanks : Bool) : Bool :=
  let p := m.prec done
  p < t.prec || (p == t.prec && !t.isBlank &&
    (!inBlanks || (m.ownersOf t.targets).contains done))

def firstLetters (m : Nfa) (t : Nat) : LetterSet :=
  (m.closure [m.starts.getD t 0]).foldl (fun s i => match m.nodes.getD i default with
    | .advance letters _ _ _ => s ∪ letters
    | _ => s) .empty

end Nfa

end CallFlow.Lexer
