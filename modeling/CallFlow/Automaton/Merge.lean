import CallFlow.Automaton.State
import CallFlow.Lexer.Conflict

/-!
Merging states.

States with the same core are merged where no token that only one of them knows could be mistaken
for a token of the other, and where what follows them is merged too. A layout token is never added
to a state, since the layout scanner acts on what a state allows. Afterwards a state that does
nothing but make a hidden node of one child is passed over.
-/
namespace CallFlow.Automaton

open CallFlow.Grammar CallFlow.Lexer

structure Row where
  actions : Array (Array Action)
  gotos : Array (Option Nat)
  tokens : SymSet
  reserves : Bool
  core : Nat
deriving Inhabited

namespace Row

def ofState (n : Numbering) (s : State) : Row where
  actions := s.actions.foldl (fun as (t, a) => as.setIfInBounds t a)
    (Array.replicate n.firstRule #[])
  gotos := s.gotos.foldl (fun gs (c, q) => gs.setIfInBounds (c - n.firstRule) (some q))
    (Array.replicate n.vars none)
  tokens := s.actions.foldl (fun m (t, _) => m ||| SymSet.single t) 0
  reserves := s.reserves
  core := s.core

def size (r : Row) : Nat :=
  (r.actions.filter (!·.isEmpty)).size + (r.gotos.filter (·.isSome)).size

def mapTargets (f : Nat → Nat) (r : Row) : Row :=
  { r with
    actions := r.actions.map fun as => as.map fun a => match a with
      | .shift q rep => .shift (f q) rep
      | a => a
    gotos := r.gotos.map fun q => q.map f }

def targets (r : Row) : List Nat :=
  (r.actions.toList.flatMap fun as => as.toList.filterMap fun a => match a with
    | .shift q _ => some q
    | _ => none) ++ r.gotos.toList.filterMap id

def shiftTarget? (as : Array Action) : Option Nat :=
  match as.back? with
  | some (.shift q _) => some q
  | _ => none

def union (r s : Row) : Row where
  actions := r.actions.zipWith (fun a b => if b.isEmpty then a else b) s.actions
  gotos := r.gotos.zipWith (fun a b => b <|> a) s.gotos
  tokens := r.tokens ||| s.tokens
  reserves := r.reserves || s.reserves
  core := r.core

end Row

structure TokenRules where
  numbering : Numbering
  /-- The tokens that are never added to a state. -/
  fixed : SymSet
  /-- For each token the tokens beside which it must not be added. -/
  blocked : Array SymSet
deriving Inhabited

namespace TokenRules

def refuses (k : TokenRules) (existing : SymSet) (t : SymCode) : Bool :=
  SymSet.has k.fixed t || (k.blocked.getD t 0 &&& existing) != 0

def sameActions (groupOf : Array Nat) (as bs : Array Action) : Bool :=
  as.size == bs.size && (as.zip bs).all fun (a, b) => match a, b with
    | .shift p i, .shift q j => groupOf.getD p 0 == groupOf.getD q 0 && i == j
    | a, b => a == b

def conflict (k : TokenRules) (groupOf : Array Nat) (r s : Row) : Bool :=
  (List.range k.numbering.firstRule).any fun t =>
    match SymSet.has r.tokens t, SymSet.has s.tokens t with
    | true, true => !sameActions groupOf (r.actions.getD t #[]) (s.actions.getD t #[])
    | true, false => k.refuses s.tokens t
    | false, true => k.refuses r.tokens t
    | false, false => false

def successorsDiffer (groupOf : Array Nat) (r s : Row) : Bool :=
  let differ (p q : Option Nat) : Bool := match p, q with
    | some p, some q => groupOf.getD p 0 != groupOf.getD q 0
    | _, _ => false
  (r.actions.zip s.actions).any (fun (as, bs) =>
    differ (Row.shiftTarget? as) (Row.shiftTarget? bs)) ||
  (r.gotos.zip s.gotos).any fun (p, q) => differ p q

end TokenRules

structure Partition where
  groups : Array (Array Nat)
  groupOf : Array Nat
deriving Inhabited

namespace Partition

def byCore (rows : Array Row) : Partition :=
  let count := rows.foldl (fun m r => max m (r.core + 1)) 0
  { groups := (rows.zipIdx).foldl (fun gs (r, i) => gs.modify r.core (·.push i))
      (Array.replicate count #[])
    groupOf := rows.map (·.core) }

def misfits (bad : Nat → Nat → Bool) : List Nat → List Nat → List Nat
  | [], out => out
  | a :: rest, out =>
    if out.contains a then misfits bad rest out
    else misfits bad rest
      (out ++ rest.filter fun b => !out.contains b && bad a b)

/--
Splits the groups from number `g` on; the misfits of a group form a new one at the end. Gives whether
anything was split.
-/
def split (bad : Array Nat → Nat → Nat → Bool) : Nat → Nat → Partition → Bool → Partition × Bool
  | 0, _, p, changed => (p, changed)
  | fuel + 1, g, p, changed =>
    match p.groups[g]? with
    | none => (p, changed)
    | some group =>
      let out := if group.size < 2 then [] else misfits (bad p.groupOf) group.toList []
      if out.isEmpty then split bad fuel (g + 1) p changed
      else
        let fresh := p.groups.size
        let groups := (p.groups.setIfInBounds g (group.filter fun i => !out.contains i)).push
          out.toArray
        let groupOf := out.foldl (fun gs i => gs.setIfInBounds i fresh) p.groupOf
        split bad fuel (g + 1) ⟨groups, groupOf⟩ true

def settle (bad : Array Nat → Nat → Nat → Bool) (size : Nat) : Nat → Partition → Partition
  | 0, p => p
  | fuel + 1, p =>
    let (p, changed) := split bad (2 * size + 1) 0 p false
    if changed then settle bad size fuel p else p

def ofRows (k : TokenRules) (rows : Array Row) : Partition :=
  let row (i : Nat) : Row := rows.getD i default
  let size := rows.size
  let (p, _) := split (fun groupOf i j => k.conflict groupOf (row i) (row j)) (2 * size + 1) 0
    (byCore rows) false
  settle (fun groupOf i j => TokenRules.successorsDiffer groupOf (row i) (row j)) size size p

def merged (p : Partition) (rows : Array Row) : Array Row :=
  p.groups.filterMap fun group => match group.toList with
    | [] => none
    | i :: rest =>
      let row := rest.foldl (fun r j => r.union (rows.getD j default)) (rows.getD i default)
      some (row.mapTargets fun q => p.groupOf.getD q 0)

end Partition

namespace Row

def unitReduction? (skippable : SymCode → Bool) (r : Row) : Option SymCode :=
  let as := r.actions.toList.flatMap (·.toList)
  let step (acc : Option (Option SymCode)) (a : Action) : Option (Option SymCode) :=
    match acc, a with
    | none, _ => none
    | acc, .shiftExtra => acc
    | some none, .reduce ⟨c, 1, 0, 0⟩ => if skippable c then some (some c) else none
    | some (some d), .reduce ⟨c, 1, 0, 0⟩ => if c == d then some (some c) else none
    | _, _ => none
  (as.foldl step (some none)).getD none

def skipUnits (n : Numbering) (unit : Array (Option SymCode)) (r : Row) : Nat → Nat → Nat
  | 0, q => q
  | fuel + 1, q =>
    match unit.getD q none with
    | none => q
    | some c => match r.gotos.getD (c - n.firstRule) none with
      | some next => skipUnits n unit r fuel next
      | none => q

end Row

/--
Whether a variable's node may be left out when it has one child: it is hidden, has no other name, and is no
extra.
-/
def isSkippable (n : Numbering) (g : Productions) (c : SymCode) : Bool :=
  let v := c - n.firstRule
  let sym := Sym.rule v
  let visible := match g.vars[v]? with
    | some x => x.visibility == .named
    | none => false
  !visible && sym ∉ g.supertypes && sym ∉ g.extras && !g.usualNames.any (·.1 == sym) &&
    !g.vars.any fun x => x.productions.any fun p => p.steps.any fun s =>
      s.sym == sym && s.rename.isSome

/--
Which states are led to. The one for errors and the one to start in are always in use.
-/
def inUse (rows : Array Row) : Array Bool :=
  rows.foldl (fun used r => r.targets.foldl (fun used q => used.setIfInBounds q true) used)
    ((Array.replicate rows.size false).setIfInBounds 0 true |>.setIfInBounds 1 true)

def dropUnused (rows : Array Row) : Array Row :=
  let used := inUse rows
  let (renumber, _) := used.foldl (fun (acc : Array Nat × Nat) u =>
    (acc.1.push acc.2, if u then acc.2 + 1 else acc.2)) (#[], 0)
  (rows.zipIdx.filterMap fun (r, i) => if used.getD i false then some r else none).map
    (·.mapTargets fun q => renumber.getD q 0)

def sortBySize (rows : Array Row) : Array Row :=
  let sizes := rows.map (·.size)
  let rest := (List.range rows.size).drop 2
  let order := [0, 1] ++ rest.mergeSort fun i j => sizes.getD j 0 ≤ sizes.getD i 0
  let renumber := order.zipIdx.foldl (fun (m : Array Nat) (old, new) => m.setIfInBounds old new)
    (Array.replicate rows.size 0)
  (order.map fun i => (rows.getD i default).mapTargets fun q => renumber.getD q 0).toArray

def mergeRows (k : TokenRules) (g : Productions) (rows : Array Row) : Array Row :=
  let n := k.numbering
  let rows := (Partition.ofRows k rows).merged rows
  let skippable := (Array.range n.vars).map fun v => isSkippable n g (n.rule v)
  let unit := rows.map fun r => r.unitReduction? fun c => skippable.getD (c - n.firstRule) false
  let rows := rows.map fun r => r.mapTargets (r.skipUnits n unit rows.size)
  sortBySize (dropUnused rows)

end CallFlow.Automaton
