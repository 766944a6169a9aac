import CallFlow.Parser.Subtree

/-!
The parser's stack.

Several ways to read the text are followed side by side. Their stacks share what they have in
common: a node of the stack links to one or more nodes below it, and each way is a head that points
to its top node. Two heads in the same state at the same place are merged.
-/
namespace CallFlow.Parser

open CallFlow.Text CallFlow.Automaton CallFlow.Lexer

/--
A way down from a node: the tree between two nodes; none where the text stopped making sense.
-/
structure Link where
  node : Nat
  tree : Option Subtree
deriving Inhabited

structure StackNode where
  state : Nat
  place : Place := {}
  links : Array Link := #[]
  errorCost : Nat := 0
  nodeCount : Nat := 0
  dynamic : Int := 0
deriving Inhabited

/--
A state that was passed before an error, how many trees lie above it, and its place.
-/
structure Passed where
  state : Nat
  depth : Nat
  place : Place
deriving Inhabited

inductive Activity where
  | active
  | paused
  | halted
deriving DecidableEq, Inhabited

structure Head where
  node : Nat
  layout : Option LayoutState := none
  lookahead : Option Subtree := none
  passed : Option (Array Passed) := none
  nodeCountAtError : Nat := 0
  activity : Activity := .active
deriving Inhabited

structure Env where
  automaton : Automaton
  text : Array Char

structure Run where
  nodes : Array StackNode := #[{ state := Automaton.startState }]
  heads : Array Head := #[{ node := 0 }]
  finished : Option Subtree := none
  accepted : Nat := 0
deriving Inhabited

abbrev ParseM := ReaderT Env (StateM Run)

/-! Limits. -/

def maxHeads : Nat := 6
def maxExtraHeads : Nat := 4
def maxPassedDepth : Nat := 16
def maxCostDifference : Nat := 18 * costOfSkippedTree
def maxLinks : Nat := 8
def maxWalkers : Nat := 64

namespace Stack

def count : ParseM Nat := return (← get).heads.size

def head (v : Nat) : ParseM Head := return (← get).heads.getD v default

def node (i : Nat) : ParseM StackNode := return (← get).nodes.getD i default

def top (v : Nat) : ParseM StackNode := do node (← head v).node

def state (v : Nat) : ParseM Nat := return (← top v).state

def place (v : Nat) : ParseM Place := return (← top v).place

def setHead (v : Nat) (f : Head → Head) : ParseM Unit :=
  modify fun r => { r with heads := r.heads.modify v f }

def setNode (i : Nat) (f : StackNode → StackNode) : ParseM Unit :=
  modify fun r => { r with nodes := r.nodes.modify i f }

def isActive (v : Nat) : ParseM Bool := return (← head v).activity == .active
def isPaused (v : Nat) : ParseM Bool := return (← head v).activity == .paused
def isHalted (v : Nat) : ParseM Bool := return (← head v).activity == .halted

def halt (v : Nat) : ParseM Unit := setHead v fun h => { h with activity := .halted }

def remove (v : Nat) : ParseM Unit :=
  modify fun r => { r with heads := r.heads.eraseIdxIfInBounds v }

def keepFirst (n : Nat) : ParseM Unit :=
  modify fun r => { r with heads := (r.heads.toList.take n).toArray }

def renumber (v w : Nat) : ParseM Unit := do
  if v == w then return
  let source ← head v
  let target ← head w
  setHead w fun _ => { source with passed := source.passed <|> target.passed }
  remove v

def swap (v w : Nat) : ParseM Unit := do
  let a ← head v
  let b ← head w
  setHead v fun _ => b
  setHead w fun _ => a

def copy (v : Nat) : ParseM Nat := do
  let h ← head v
  let n ← count
  modify fun r => { r with heads := r.heads.push { h with passed := none } }
  return n

def push (v : Nat) (tree : Option Subtree) (state : Nat) : ParseM Unit := do
  let a := (← read).automaton
  let below := (← head v).node
  let old ← node below
  let new : StackNode := match tree with
    | some t =>
      { state, place := t.info.stop, links := #[⟨below, tree⟩]
        errorCost := old.errorCost + t.errorCost
        nodeCount := old.nodeCount + t.nodeCount a
        dynamic := old.dynamic + t.dynamic }
    | none => { old with state, links := #[⟨below, tree⟩] }
  let id := (← get).nodes.size
  modify fun r => { r with nodes := r.nodes.push new }
  setHead v fun h => { h with
    node := id
    nodeCountAtError := if tree.isNone then new.nodeCount else h.nodeCountAtError }

/--
Puts a head on a node of its own, with nothing left below it.
-/
def leave (v : Nat) (place : Place) : ParseM Unit := do
  let id := (← get).nodes.size
  modify fun r => { r with nodes := r.nodes.push { state := Automaton.startState, place } }
  setHead v fun h => { h with node := id }

def errorCost (v : Nat) : ParseM Nat := do
  let t ← top v
  let atError := t.state == Automaton.errorState && match t.links[0]? with
    | some l => l.tree.isNone
    | none => true
  return t.errorCost + (if (← isPaused v) || atError then costOfRecovery else 0)

def nodesSinceError (v : Nat) : ParseM Nat := do
  let n := (← top v).nodeCount
  setHead v fun h => { h with nodeCountAtError := min h.nodeCountAtError n }
  return n - (← head v).nodeCountAtError

def pause (v : Nat) (lookahead : Subtree) : ParseM Unit := do
  let n := (← top v).nodeCount
  setHead v fun h => { h with
    activity := .paused, lookahead := some lookahead, nodeCountAtError := n }

def resume (v : Nat) : ParseM (Option Subtree) := do
  let h ← head v
  setHead v fun h => { h with activity := .active, lookahead := none }
  return h.lookahead

def hasAdvanced (v : Nat) : ParseM Bool := do
  let h ← head v
  let t ← top v
  if t.errorCost == 0 then return true
  go h (← get).nodes.size t
where
  go (h : Head) : Nat → StackNode → ParseM Bool
    | 0, _ => return false
    | fuel + 1, t => do
      let down : Option Link := t.links[0]?
      match down with
      | some ⟨below, some tree⟩ =>
        if tree.totalBytes > 0 then return true
        else if t.nodeCount > h.nodeCountAtError && tree.errorCost == 0 then
          go h fuel (← node below)
        else return false
      | _ => return false

/-! Merging. -/

/--
Adds one more way down to a node. Where it leads through an equivalent tree to a node like one that is there
already, those nodes are merged instead.
-/
def addLink : Nat → Nat → Link → ParseM Unit
  | 0, _, _ => return
  | fuel + 1, self, link => do
    if link.node == self then return
    let a := (← read).automaton
    let n ← node self
    let below ← node link.node
    for (old, i) in n.links.zipIdx do
      if Subtree.equivalent old.tree link.tree then
        if old.node == link.node then
          match link.tree, old.tree with
          | some t, some u =>
            if u.dynamic < t.dynamic then
              setNode self fun n => { n with
                links := n.links.modify i fun l => { l with tree := some t }
                dynamic := below.dynamic + t.dynamic }
          | _, _ => pure ()
          return
        let other ← node old.node
        if other.state == below.state && other.place.byte == below.place.byte &&
            other.errorCost == below.errorCost then
          for l in below.links do addLink fuel old.node l
          let d := below.dynamic + (link.tree.map Subtree.dynamic).getD 0
          setNode self fun n => { n with dynamic := max n.dynamic d }
          return
    if n.links.size ≥ maxLinks then return
    let count := below.nodeCount + (link.tree.map (Subtree.nodeCount a)).getD 0
    let d := below.dynamic + (link.tree.map Subtree.dynamic).getD 0
    setNode self fun n => { n with
      links := n.links.push link
      nodeCount := max n.nodeCount count
      dynamic := max n.dynamic d }

def canMerge (v w : Nat) : ParseM Bool := do
  let a ← head v
  let b ← head w
  let s ← top v
  let t ← top w
  return a.activity == .active && b.activity == .active && s.state == t.state &&
    s.place.byte == t.place.byte && s.errorCost == t.errorCost && a.layout == b.layout

def merge (v w : Nat) : ParseM Bool := do
  if !(← canMerge v w) then return false
  let target := (← head v).node
  for link in (← top w).links do
    addLink (← get).nodes.size target link
  let t ← node target
  if t.state == Automaton.errorState then
    setHead v fun h => { h with nodeCountAtError := t.nodeCount }
  remove w
  return true

/-! Walking down. -/

/--
A walk down from a head: the trees passed, the deepest first, and how many of them count.
-/
structure Walker where
  node : Nat
  trees : List Subtree := []
  depth : Nat := 0

/--
The trees above a node, and the head that was made for that node.
-/
structure Slice where
  trees : List Subtree
  head : Nat
deriving Inhabited

inductive Visit where
  | goOn
  | stop
  | take
  | takeAndStop
deriving DecidableEq

def Visit.takes : Visit → Bool
  | .take | .takeAndStop => true
  | _ => false

def Visit.stops : Visit → Bool
  | .stop | .takeAndStop => true
  | _ => false

/--
Keeps the trees of a walk. Walks that end at the same node share a head.
-/
def addSlice (origin : Nat) (w : Walker) (slices : Array Slice) : ParseM (Array Slice) := do
  let heads := (← get).heads
  let same := (slices.zipIdx.filter fun (s, _) => (heads.getD s.head default).node == w.node).back?
  match same with
  | some (s, i) => return (slices.toList.insertIdx (i + 1) ⟨w.trees, s.head⟩).toArray
  | none =>
    let o := heads.getD origin default
    modify fun r => { r with heads := r.heads.push {
      node := w.node, layout := o.layout, nodeCountAtError := o.nodeCountAtError } }
    return slices.push ⟨w.trees, heads.size⟩

def Walker.follow (w : Walker) (l : Link) : Walker where
  node := l.node
  trees := match l.tree with
    | some t => t :: w.trees
    | none => w.trees
  depth := match l.tree with
    | some t => if t.extra then w.depth else w.depth + 1
    | none => w.depth + 1

/--
Moves every walker one node down. A walker takes the first link; for each other link one more walker is
added, as long as there are not too many.
-/
def walkStep {σ : Type} (visit : σ → Walker → StackNode → σ × Visit) (origin : Nat) :
    List Walker → Array Walker → Array Walker → σ → Array Slice →
      ParseM (List Walker × σ × Array Slice)
  | [], kept, added, s, slices => return ((kept ++ added).toList, s, slices)
  | w :: rest, kept, added, s, slices => do
    let n ← node w.node
    let (s, what) := visit s w n
    let slices ← if what.takes then addSlice origin w slices else pure slices
    match n.links[0]? with
    | none => walkStep visit origin rest kept added s slices
    | some first =>
      if what.stops then walkStep visit origin rest kept added s slices
      else
        let added := (n.links.toList.drop 1).foldl (fun (added : Array Walker) l =>
          if kept.size + 1 + rest.length + added.size ≥ maxWalkers then added
          else added.push (w.follow l)) added
        walkStep visit origin rest (kept.push (w.follow first)) added s slices

def walk {σ : Type} (visit : σ → Walker → StackNode → σ × Visit) (origin : Nat) (s : σ) :
    ParseM (σ × Array Slice) := do
  go ((← get).nodes.size + 1) [{ node := (← head origin).node }] s #[]
where
  go : Nat → List Walker → σ → Array Slice → ParseM (σ × Array Slice)
    | 0, _, s, slices => return (s, slices)
    | _, [], s, slices => return (s, slices)
    | fuel + 1, w :: ws, s, slices => do
      let (ws, s, slices) ← walkStep visit origin (w :: ws) #[] #[] s slices
      go fuel ws s slices

def popCount (v n : Nat) : ParseM (Array Slice) := do
  let ((), slices) ← walk (fun _ w _ => ((), if w.depth == n then .takeAndStop else .goOn)) v ()
  return slices

def popAll (v : Nat) : ParseM (Array Slice) := do
  let ((), slices) ← walk (fun _ _ n => ((), if n.links.isEmpty then .take else .goOn)) v ()
  return slices

def popError (v : Nat) : ParseM (List Subtree) := do
  let a := (← read).automaton
  let isError (t : Option Subtree) : Bool := match t with
    | some t => t.isError a
    | none => false
  if !(← top v).links.any fun l => isError l.tree then return []
  let (_, slices) ← walk (fun found w _ => match w.trees with
    | [] => (found, .goOn)
    | t :: _ => if !found && t.isError a then (true, .takeAndStop) else (found, .stop)) v false
  match slices[0]? with
  | some s =>
    renumber s.head v
    return s.trees
  | none => return []

def recordPassed (v : Nat) : ParseM Unit := do
  let known (ps : Array Passed) (w : Walker) (n : StackNode) : Bool :=
    (ps.toList.reverse.takeWhile fun p => !(p.depth < w.depth)).any fun p =>
      p.depth == w.depth && p.state == n.state
  let (passed, _) ← walk (fun ps w n =>
    if w.depth > maxPassedDepth then (ps, .stop)
    else if known ps w n then (ps, .goOn)
    else (ps.push ⟨n.state, w.depth, n.place⟩, .goOn)) v (#[] : Array Passed)
  setHead v fun h => { h with passed := some passed }

end Stack

end CallFlow.Parser
