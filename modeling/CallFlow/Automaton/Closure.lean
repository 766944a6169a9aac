import CallFlow.Automaton.Item

/-!
Which items a state holds besides those that lead to it.

Before a variable is read any of its productions may begin, and so may any production of a variable
that can stand first in one of those. What must be added for a variable does not depend on the
state, apart from what may follow the variable there, so it is computed once per variable.
-/
namespace CallFlow.Automaton

open CallFlow.Grammar

def SymSet.has (s : SymSet) (c : SymCode) : Bool := s.testBit c

def SymSet.single (c : SymCode) : SymSet := 1 <<< c

structure Lookahead where
  item : Nat
  follow : SymSet
deriving Inhabited, BEq

/--
An item that stands wherever a certain variable may come next.
-/
structure Addition where
  item : Nat
  follow : SymSet
  inherits : Bool
deriving Inhabited

structure Context where
  numbering : Numbering
  table : ItemTable
  first : Array SymSet
  last : Array SymSet
  additions : Array (Array Addition)
  word : SymCode
  extras : List SymCode
  auxiliary : Array Bool
deriving Inhabited

namespace Context

def edgesStep (n : Numbering) (g : Productions) (pick : List Step → Option Step)
    (sets : Array SymSet) : Array SymSet :=
  g.vars.zipIdx.foldl (fun sets (v, i) =>
    sets.modify (n.rule i) fun s => v.productions.foldl (fun s p => match pick p.steps with
      | some t => s ||| sets.getD (n.code t.sym) 0
      | none => s) s) sets

/--
For each symbol the tokens that can stand at one end of it, the end that `pick` picks. The number of rounds
is the number of variables, after which no set grows any more.
-/
def edges (n : Numbering) (g : Productions) (pick : List Step → Option Step) : Array SymSet :=
  g.vars.size.repeat (edgesStep n g pick)
    ((Array.range n.total).map fun c => if n.isRule c then 0 else SymSet.single c)

structure Arrival where
  follow : SymSet := 0
  inherits : Bool := false
  reached : Bool := false
deriving Inhabited

/--
Follows the variables that can stand first, from the pending ones on. Each step that adds something adds a
token or the mark of inheritance to one variable, so `fuel` steps suffice.
-/
def arrive (n : Numbering) (g : Productions) (first : Array SymSet) :
    Nat → List (Nat × SymSet × Bool) → Array Arrival → Array Arrival
  | 0, _, known => known
  | _, [], known => known
  | fuel + 1, (v, follow, inherits) :: pending, known =>
    let old := known.getD v {}
    let now : Arrival :=
      if inherits then { old with inherits := true, reached := true }
      else { old with follow := old.follow ||| follow, reached := true }
    let grown := if inherits then !old.inherits else now.follow != old.follow
    if grown then
      let next := ((g.vars[v]?.map (·.productions)).getD []).filterMap fun p =>
        match p.steps with
        | [⟨.rule w, _, _, _, _⟩] => some (w, follow, inherits)
        | ⟨.rule w, _, _, _, _⟩ :: s :: _ => some (w, first.getD (n.code s.sym) 0, false)
        | _ => none
      arrive n g first fuel (next ++ pending) (known.setIfInBounds v now)
    else arrive n g first fuel pending (known.setIfInBounds v now)

def additionsOf (n : Numbering) (g : Productions) (table : ItemTable) (first : Array SymSet)
    (v : Nat) : Array Addition :=
  let fuel := 64 * n.total * n.total
  let known := arrive n g first fuel [(v, 0, true)] (g.vars.map fun _ => {})
  (known.zipIdx.foldl (fun (acc : Array Addition × Array Bool) (a, w) =>
    if !a.reached || Sym.rule w ∈ g.inlined then acc
    else (table.initial.getD w #[]).foldl (fun acc i =>
      let it := table.items.getD i default
      let ids := if it.expansions.isEmpty then #[i] else it.expansions
      ids.foldl (fun acc id =>
        if acc.2.getD id false then acc
        else (acc.1.push ⟨id, a.follow, a.inherits⟩, acc.2.setIfInBounds id true)) acc) acc)
    (#[], Array.replicate table.items.size false)).1

def ofProductions (g : Productions) : Context :=
  let n := Numbering.ofProductions g
  let table := ItemTable.ofProductions g
  let first := edges n g List.head?
  { numbering := n
    table, first
    last := edges n g List.getLast?
    additions := (Array.range g.vars.size).map (additionsOf n g table first)
    word := n.token g.word
    extras := g.extras.map n.code
    auxiliary := g.vars.map fun v => v.visibility == .auxiliary }

/--
Adds an item with what may follow it, and what must be added for its next symbol. `masks` holds for each
item the tokens that may follow, 0 for an item that is not there.
-/
def insert (ctx : Context) (masks : Array SymSet) (id : Nat) (follow : SymSet) : Array SymSet :=
  let it := ctx.table.items.getD id default
  let masks : Array SymSet := match it.next with
    | some c =>
      if ctx.numbering.isRule c then
        let behind := match it.after with
          | some d => ctx.first.getD d 0
          | none => follow
        let added : Array Addition := ctx.additions.getD (c - ctx.numbering.firstRule) #[]
        added.foldl (fun masks a => masks.modify a.item fun m =>
          if a.inherits then m ||| a.follow ||| behind else m ||| a.follow) masks
      else masks
    | none => masks
  masks.modify id (· ||| follow)

def closure (ctx : Context) (kernel : Array Lookahead) : Array Lookahead :=
  let masks := kernel.foldl (fun masks l =>
    let it := ctx.table.items.getD l.item default
    if it.expansions.isEmpty then ctx.insert masks l.item l.follow
    else it.expansions.foldl (fun masks id => ctx.insert masks id l.follow) masks)
    (Array.replicate ctx.table.items.size 0)
  let step (acc : Array Lookahead × Nat) (m : SymSet) : Array Lookahead × Nat :=
    (if m == 0 then acc.1 else acc.1.push ⟨acc.2, m⟩, acc.2 + 1)
  (masks.foldl step (#[], 0)).1

end Context

end CallFlow.Automaton
