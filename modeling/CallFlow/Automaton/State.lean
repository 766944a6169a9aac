import CallFlow.Automaton.Closure

/-!
States and actions of the automaton before states are merged.

In a state the next token selects a list of actions. More than one action is left only where the
grammar wants both readings followed. Where precedences can decide they do: between reductions the
highest wins, between a shift and the reductions the higher one, and if they are equal left
associativity reduces and right associativity shifts.
-/
namespace CallFlow.Automaton

open CallFlow.Grammar

structure Reduction where
  symbol : SymCode
  count : Nat
  dynamic : Int
  labels : Nat
deriving DecidableEq, Inhabited, Repr

inductive Action where
  /-- Read it and go on in `state`. A repeated part that could be read either way is not read as a shift:
  then `isRepetition` is set. -/
  | shift (state : Nat) (isRepetition : Bool)
  | shiftExtra
  | reduce (r : Reduction)
  | accept
  /-- Try to go on after an error. -/
  | recover
deriving DecidableEq, Inhabited, Repr

/--
A state. Tokens without an entry are errors.
-/
structure State where
  actions : Array (SymCode × Array Action) := #[]
  gotos : Array (SymCode × Nat) := #[]
  reserves : Bool := false
  /-- States with the same items, whatever may follow them, have the same core. -/
  core : Nat := 0
deriving Inhabited

structure Cell where
  actions : Array Action := #[]
  prec : Int := 0
  left : Bool := false
  right : Bool := false
  neither : Bool := false
  conflict : Bool := false
deriving Inhabited

namespace Cell

def noteAssoc (c : Cell) : Option Assoc → Cell
  | some .left => { c with left := true }
  | some .right => { c with right := true }
  | none => { c with neither := true }

def add (c : Cell) (a : Action) (prec : Int) (assoc : Option Assoc) : Cell :=
  if c.actions.isEmpty then
    ({ c with actions := #[a], prec } : Cell).noteAssoc assoc
  else if c.prec < prec then
    ({ actions := #[a], prec } : Cell).noteAssoc assoc
  else if c.prec == prec then
    ({ c with actions := c.actions.push a, conflict := true } : Cell).noteAssoc assoc
  else c

end Cell

namespace Context

def finish (ctx : Context) (it : Item) : Action :=
  if it.owner < ctx.additions.size then
    .reduce ⟨ctx.numbering.rule it.owner, it.read, it.dynamic, it.labels⟩
  else .accept

def cells (ctx : Context) (items : Array Lookahead) : Array Cell :=
  items.foldl (fun cells l =>
    let it := ctx.table.items.getD l.item default
    if it.isDone then
      let a := ctx.finish it
      (List.range ctx.numbering.firstRule).foldl (fun cells t =>
        if SymSet.has l.follow t then cells.modify t fun c => c.add a it.prec it.assoc
        else cells) cells
    else cells) (Array.replicate ctx.numbering.firstRule {})

def disputed (ctx : Context) (items : Array Lookahead) (t : SymCode) : Array Item :=
  (items.filterMap fun l =>
    let it := ctx.table.items.getD l.item default
    match it.next with
    | some c => if it.read > 0 && SymSet.has (ctx.first.getD c 0) t then some it else none
    | none => if SymSet.has l.follow t then some it else none)

def settle (ctx : Context) (items : Array Lookahead) (t : SymCode) (cell : Cell) (target : Nat) :
    Array Action :=
  let disputed := ctx.disputed items t
  let owners := (disputed.filter fun it => it.owner < ctx.additions.size).map (·.owner)
  let shift := Action.shift target false
  match owners[0]? with
  | none => cell.actions.push shift
  | some owner =>
    if ctx.auxiliary.getD owner false && owners.all (· == owner) then
      cell.actions.push (.shift target true)
    else
      let shifts := disputed.filter fun it => !it.isDone
      let more := shifts.any fun it => cell.prec < it.prec
      let less := shifts.any fun it => it.prec < cell.prec
      if more && !less then #[shift]
      else if less && !more then cell.actions
      else if more then cell.actions.push shift
      else if cell.left && !cell.neither && !cell.right then cell.actions
      else if cell.right && !cell.neither && !cell.left then #[shift]
      else cell.actions.push shift

def entry (ctx : Context) (items : Array Lookahead) (cell : Cell) (target : Option Nat) (t : SymCode) :
    Array Action :=
  if ctx.extras.contains t then #[.shiftExtra]
  else match target with
    | none => cell.actions
    | some target =>
      if cell.actions.isEmpty then #[.shift target false] else ctx.settle items t cell target

def successors (ctx : Context) (items : Array Lookahead) : Array (Array Lookahead) :=
  items.foldl (fun next l =>
    let it := ctx.table.items.getD l.item default
    match it.next with
    | some c => next.modify c (·.push ⟨it.succ, l.follow⟩)
    | none => next) (Array.replicate ctx.numbering.total #[])

def normalize (kernel : Array Lookahead) : Array Lookahead :=
  if kernel.size ≤ 1 then kernel
  else ((kernel.toList.mergeSort fun a b => a.item ≤ b.item).foldl
    (fun (acc : Array Lookahead) l => match acc.back? with
      | some m =>
        if m.item == l.item then acc.pop.push ⟨l.item, m.follow ||| l.follow⟩ else acc.push l
      | none => acc.push l) #[])

def reserves (ctx : Context) (items : Array Lookahead) : Bool :=
  items.any fun l =>
    match (ctx.table.items.getD l.item default).next with
    | some c => c == ctx.word
    | none => SymSet.has l.follow ctx.word

def state (ctx : Context) (items : Array Lookahead) (targets : Array (Option Nat)) (core : Nat) :
    State :=
  let n := ctx.numbering
  let cells := ctx.cells items
  { actions := (Array.range n.firstRule).filterMap fun t =>
      let as := ctx.entry items (cells.getD t {}) (targets.getD t none) t
      if as.isEmpty then none else some (t, as)
    gotos := (Array.range n.vars).filterMap fun v =>
      (targets.getD (n.rule v) none).map (n.rule v, ·)
    reserves := ctx.reserves items
    core }

end Context

structure Kernel where
  items : Array Lookahead
deriving BEq

instance : Hashable Kernel where
  hash k := k.items.foldl (fun h l =>
    mixHash (mixHash h (hash l.item)) (mixHash (hash l.follow) (hash (l.follow >>> 64)))) 7

structure Builder where
  kernels : Array (Array Lookahead) := #[]
  ids : Std.HashMap Kernel Nat := {}
  cores : Std.HashMap (Array Nat) Nat := {}
  coreOf : Array Nat := #[]
  states : Array State := #[]

namespace Builder

def stateOf (b : Builder) (kernel : Array Lookahead) : Builder × Nat :=
  match b.ids[Kernel.mk kernel]? with
  | some id => (b, id)
  | none =>
    let id := b.kernels.size
    let coreKey := kernel.map (·.item)
    let (cores, core) := match b.cores[coreKey]? with
      | some c => (b.cores, c)
      | none => (b.cores.insert coreKey b.cores.size, b.cores.size)
    ({ b with
        kernels := b.kernels.push kernel
        ids := b.ids.insert ⟨kernel⟩ id
        cores, coreOf := b.coreOf.push core }, id)

/--
The states that are reached by reading each symbol.
-/
def follow (b : Builder) (successors : Array (Array Lookahead)) : Builder × Array (Option Nat) :=
  successors.foldl (fun (acc : Builder × Array (Option Nat)) next =>
    if next.isEmpty then (acc.1, acc.2.push none)
    else
      let (b, target) := acc.1.stateOf (Context.normalize next)
      (b, acc.2.push (some target))) (b, #[])

def fill (ctx : Context) (b : Builder) (kernel : Array Lookahead) : Builder :=
  let id := b.states.size
  let items := ctx.closure kernel
  let (b, targets) := b.follow (ctx.successors items)
  { b with states := b.states.push (ctx.state items targets (b.coreOf.getD id 0)) }

def run (ctx : Context) : Nat → Builder → Builder
  | 0, b => b
  | fuel + 1, b =>
    match b.kernels[b.states.size]? with
    | none => b
    | some kernel => run ctx fuel (fill ctx b kernel)

def maxStates : Nat := 65536

def ofContext (ctx : Context) : Builder :=
  let (b, _) := ({} : Builder).stateOf #[]
  let (b, _) := b.stateOf #[⟨ctx.table.start, SymSet.single ctx.numbering.stop⟩]
  run ctx maxStates b

end Builder

end CallFlow.Automaton
