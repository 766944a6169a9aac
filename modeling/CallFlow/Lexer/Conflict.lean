import CallFlow.Lexer.Nfa

/-!
How two tokens get in each other's way.

Both tokens are read side by side from the start. Wherever one of them ends the other may end too,
may go on, or may be in its leading blanks.
-/
namespace CallFlow.Lexer

structure Status where
  /-- It ends where the other could go on, and ending is preferred. -/
  isPrefix : Bool := false
  /-- It goes on where the other ends. -/
  continues : Bool := false
  /-- It goes on with a letter that may also follow the other. -/
  continuesValidly : Bool := false
  /-- It ends where the other may still skip blanks. -/
  endsInBlanks : Bool := false
  /-- It matches a text that the other matches too, and is preferred. -/
  wins : Bool := false
  /-- It matches a text that the other does not. -/
  differs : Bool := false
deriving DecidableEq, Repr, Inhabited

structure Statuses where
  left : Status := {}
  right : Status := {}
deriving Inhabited

namespace Statuses

def note (s : Statuses) (isLeft : Bool) (f : Status → Status) : Statuses :=
  if isLeft then { s with left := f s.left } else { s with right := f s.right }

def complete (m : Nfa) (i : Nat) (inBlanks : Bool) (s : Statuses) (done : Option Nat) :
    List Nat → Statuses × Option Nat
  | [] => (s, done)
  | t :: ts =>
    let s := if inBlanks then s.note (t == i) fun x => { x with endsInBlanks := true } else s
    match done with
    | none => complete m i inBlanks s (some t) ts
    | some d =>
      if d == t then complete m i inBlanks s done ts
      else
        let best := if m.prefers d t then d else t
        complete m i inBlanks (s.note (best == i) fun x => { x with wins := true }) (some best) ts

def advance (m : Nfa) (after : Nat → LetterSet) (i j : Nat) (inBlanks : Bool) (done : Option Nat)
    (s : Statuses) (t : Nfa.Transition) : Statuses :=
  match done with
  | none => s
  | some d =>
    let owners := m.ownersOf t.targets
    if owners.contains d then s
    else match owners.getLast? with
      | none => s
      | some a =>
        if m.goesOn t d inBlanks then
          let other := if a == i then j else i
          let valid := !(t.letters.inter (after other)).isEmpty
          s.note (a == i) fun x =>
            { x with continues := true, continuesValidly := x.continuesValidly || valid }
        else s.note (d == i) fun x => { x with isPrefix := true }

/--
Reads two tokens side by side. Each set of nodes is visited once.
-/
def explore (m : Nfa) (after : Nat → LetterSet) (i j : Nat) :
    Nat → List (List Nat) → List (List Nat) → Statuses → Statuses
  | 0, _, _, s => s
  | _, [], _, s => s
  | fuel + 1, ids :: pending, seen, s =>
    match m.ownersOf ids with
    | [a] => explore m after i j fuel pending seen
        (s.note (a == i) fun x => { x with differs := true })
    | _ =>
      let here := m.closure ids
      let inBlanks := m.inBlanks here
      let (s, done) := complete m i inBlanks s none (m.completions here)
      let ts := m.transitions here
      let s := ts.foldl (advance m after i j inBlanks done) s
      let (pending, seen) := ts.foldl (fun (pending, seen) t =>
        if seen.contains t.targets then (pending, seen)
        else (t.targets :: pending, t.targets :: seen)) (pending, seen)
      explore m after i j fuel pending seen s

/--
How the tokens `i` and `j` stand to each other. Any set of their nodes may come up, which bounds the number
of steps.
-/
def ofTokens (m : Nfa) (after : Nat → LetterSet) (i j : Nat) : Statuses :=
  explore m after i j (Nat.pow 2 m.nodes.size) [[m.starts.getD i 0, m.starts.getD j 0]] [] {}

end Statuses

structure ConflictTable where
  size : Nat
  rows : Array (Array Status)
deriving Inhabited

namespace ConflictTable

def status (t : ConflictTable) (i j : Nat) : Status :=
  (t.rows.getD i #[]).getD j {}

def ofNfa (m : Nfa) (after : Nat → LetterSet) : ConflictTable :=
  let n := m.tokens.size
  let empty : Array (Array Status) := Array.replicate n (Array.replicate n {})
  let rows := (List.range n).foldl (fun rows i =>
    (List.range i).foldl (fun (rows : Array (Array Status)) j =>
      let s := Statuses.ofTokens m after i j
      (rows.modify i (·.setIfInBounds j s.left)).modify j (·.setIfInBounds i s.right)) rows) empty
  ⟨n, rows⟩

def conflicts (t : ConflictTable) (i j : Nat) : Bool :=
  let s := t.status i j
  s.continuesValidly || s.endsInBlanks || s.wins

def matchesSame (t : ConflictTable) (i j : Nat) : Bool := (t.status i j).wins

def overlaps (t : ConflictTable) (i j : Nat) : Bool :=
  let s := t.status i j
  s.endsInBlanks || s.isPrefix || s.wins || s.continues

def differsInLength (t : ConflictTable) (i j : Nat) : Bool :=
  let s := t.status i j
  (s.continuesValidly || s.endsInBlanks) && !(t.status j i).endsInBlanks

end ConflictTable

end CallFlow.Lexer
