import CallFlow.Parser.Lex

/-!
The parser.

All ways to read the text are advanced token by token. Ways that come to the same state at the same
place are merged, and ways that are clearly worse than another are dropped. Only when no way can go
on is an error recovered from: by a token that the text does not have, by going back to an earlier
state, or by skipping.
-/
namespace CallFlow.Parser

open CallFlow.Text CallFlow.Automaton CallFlow.Lexer

namespace Engine

/-! Comparing. -/

structure Standing where
  cost : Nat
  nodeCount : Nat
  dynamic : Int
  inError : Bool

def standing (v : Nat) : ParseM Standing := do
  let paused ← Stack.isPaused v
  let cost ← Stack.errorCost v
  let nodeCount ← Stack.nodesSinceError v
  let t ← Stack.top v
  return {
    cost := if paused then cost + costOfSkippedTree else cost
    nodeCount
    dynamic := t.dynamic
    inError := paused || t.state == Automaton.errorState }

inductive Verdict where
  | takeLeft
  | preferLeft
  | even
  | preferRight
  | takeRight
deriving DecidableEq

def judge (a b : Standing) : Verdict :=
  if !a.inError && b.inError then
    if a.cost < b.cost then .takeLeft else .preferLeft
  else if a.inError && !b.inError then
    if b.cost < a.cost then .takeRight else .preferRight
  else if a.cost < b.cost then
    if (b.cost - a.cost) * (1 + a.nodeCount) > maxCostDifference then .takeLeft else .preferLeft
  else if b.cost < a.cost then
    if (a.cost - b.cost) * (1 + b.nodeCount) > maxCostDifference then .takeRight else .preferRight
  else if b.dynamic < a.dynamic then .preferLeft
  else if a.dynamic < b.dynamic then .preferRight
  else .even

def isBeaten (v : Nat) (cost : Nat) : ParseM Bool := do
  let place ← Stack.place v
  let nodeCount ← Stack.nodesSinceError v
  let mine : Standing := { cost, nodeCount, dynamic := (← Stack.top v).dynamic, inError := false }
  for i in List.range (← Stack.count) do
    if i != v && (← Stack.isActive i) && !((← Stack.place i).byte < place.byte) then
      match judge mine (← standing i) with
      | .takeRight => return true
      | .preferRight => if ← Stack.canMerge i v then return true
      | _ => pure ()
  return false

def isHopeless (v : Nat) (cost : Nat) : ParseM Bool := do
  match (← get).finished with
  | some t => if t.errorCost ≤ cost then return true
  | none => pure ()
  isBeaten v cost

/-! Reducing. -/

def groupSlices (slices : Array Stack.Slice) : List (Nat × List (List Subtree)) :=
  slices.toList.foldr (fun s acc => match acc with
    | (h, ts) :: rest => if h == s.head then (h, s.trees :: ts) :: rest else (s.head, [s.trees]) :: acc
    | [] => [(s.head, [s.trees])]) []

/--
Makes a parent of the children, the better ones where there is a choice, and gives the extra trees behind it
too.
-/
def choose (symbol : SymCode) (labels : Nat) (place : Place) (ways : List (List Subtree)) :
    ParseM (Subtree × List Subtree) := do
  let a := (← read).automaton
  let make (trees : List Subtree) (labels : Nat) : Subtree × List Subtree :=
    let (children, trailing) := Subtree.splitTrailing trees
    (Subtree.node a symbol labels place children, trailing)
  match ways with
  | [] => return (Subtree.node a symbol labels place [], [])
  | first :: rest =>
    return rest.foldl (fun best trees =>
      let (scratch, _) := make trees 0
      if Subtree.prefersRight a best.1 scratch then make trees labels else best)
      (make first labels)

def mergeBack (v except : Nat) : ParseM Bool := do
  for j in List.range v do
    if j != except then
      if ← Stack.merge j v then return true
  return false

/--
Replaces the top of a head by its parent, in every way there is. Gives the first head that was made for
that, if any is left.
-/
def reduce (v : Nat) (r : Reduction) : ParseM (Option Nat) := do
  let a := (← read).automaton
  let before ← Stack.count
  let slices ← Stack.popCount v r.count
  let halted := ((← get).heads.filter (·.activity == .halted)).size
  let mut removed := 0
  for (h, ways) in groupSlices slices do
    let w := h - removed
    if w > maxHeads + maxExtraHeads + halted then
      Stack.remove w
      removed := removed + 1
    else
      let (parent, trailing) ← choose r.symbol r.labels (← Stack.place w) ways
      let next := a.nextState (← Stack.state w) r.symbol
      Stack.push w (some (parent.addDynamic r.dynamic)) next
      for t in trailing do Stack.push w (some t) next
      if ← mergeBack w v then removed := removed + 1
  return if (← Stack.count) > before then some before else none

def possible (state : Nat) (tokens : List SymCode) : ParseM (Array Reduction × Bool) := do
  let a := (← read).automaton
  return tokens.foldl (fun acc c => (a.actions state c).foldl (fun (rs, shifts) x => match x with
    | .shift _ isRepetition => (rs, shifts || !isRepetition)
    | .recover => (rs, true)
    | .reduce r =>
      if r.count > 0 && !rs.any fun q => q.symbol == r.symbol && q.count == r.count then
        (rs.push r, shifts)
      else (rs, shifts)
    | _ => (rs, shifts)) acc) (#[], false)

def mergeAmong (first v : Nat) : ParseM Bool := do
  for j in List.range v do
    if first ≤ j then
      if ← Stack.merge j v then return true
  return false

def reduceAll (start : Nat) (token : Option SymCode) : ParseM Bool := do
  let a := (← read).automaton
  let first ← Stack.count
  let tokens := match token with
    | some t => [t]
    | none => a.tokenOrder
  go first tokens (64 * (first + 16)) 0 start false
where
  go (first : Nat) (tokens : List SymCode) : Nat → Nat → Nat → Bool → ParseM Bool
    | 0, _, _, can => return can
    | fuel + 1, i, v, can => do
      let count ← Stack.count
      if count ≤ v then return can
      if ← mergeAmong first v then
        go first tokens fuel (i + 1) v can
      else
        let (reductions, shifts) ← possible (← Stack.state v) tokens
        let mut last : Option Nat := none
        for r in reductions do last ← reduce v r
        let next := if v == start then count else v + 1
        if shifts then go first tokens fuel (i + 1) next true
        else match last with
          | some w =>
            if i < maxHeads then
              Stack.renumber w v
              go first tokens fuel (i + 1) v can
            else
              if token.isSome then Stack.remove v
              go first tokens fuel (i + 1) next can
          | none =>
            if token.isSome then Stack.remove v
            go first tokens fuel (i + 1) next can

/-! Shifting and accepting. -/

def takeLayout (v : Nat) (t : Subtree) : ParseM Unit := do
  if t.info.layout.isSome then
    Stack.setHead v fun h => { h with layout := t.info.layout }

def shift (v state : Nat) (t : Subtree) (extra : Bool) : ParseM Unit := do
  let t := if t.children.isEmpty then t.setExtra extra else t
  Stack.push v (some t) state
  takeLayout v t

/--
Makes a whole tree of each way down from a head, with the errors and the end of the text behind it, and keeps
the best one.
-/
def accept (v : Nat) (errors : List Subtree) (lookahead : Subtree) : ParseM Unit := do
  let a := (← read).automaton
  let place ← Stack.place v
  let slices ← Stack.popAll v
  Stack.leave v lookahead.info.stop
  for s in slices do
    let (after, rest) := (s.trees ++ (errors ++ [lookahead])).reverse.span Subtree.extra
    match rest with
    | [] => modify fun r => { r with accepted := r.accepted + 1 }
    | t :: before =>
      let root := Subtree.node a t.symbol t.info.labels place
        (before.reverse ++ t.children ++ after.reverse)
      modify fun r => { r with
        accepted := r.accepted + 1
        finished := match r.finished with
          | some old => if Subtree.prefersRight a old root then some root else some old
          | none => some root }
  match slices[0]? with
  | some s => Stack.remove s.head
  | none => pure ()
  Stack.halt v

/-! Recovering. -/

/--
Puts trees that make no sense on a head, as one error and the extra trees behind it.
-/
def pushError (v : Nat) (trees : List Subtree) (state : Nat) : ParseM Unit := do
  let a := (← read).automaton
  let place ← Stack.place v
  let (children, trailing) := Subtree.splitTrailing trees
  if !children.isEmpty then
    let e := Subtree.node a a.errorSymbol 0 place children
    Stack.push v (some (e.setExtra true)) state
  for t in trailing do Stack.push v (some t) state

def recoverTo (v depth goal : Nat) : ParseM Bool := do
  let slices ← Stack.popCount v depth
  let mut done : Option Nat := none
  for s in slices do
    if done == some s.head then continue
    if (← Stack.state s.head) != goal then
      Stack.halt s.head
      continue
    let errors ← Stack.popError s.head
    pushError s.head ((errors.head?.map Subtree.children).getD [] ++ s.trees) goal
    done := some s.head
  return done.isSome

def standsAt (count state byte : Nat) : ParseM Bool := do
  for j in List.range count do
    if (← Stack.state j) == state && (← Stack.place j).byte == byte then return true
  return false

/--
Looks for a state passed before the error in which the token makes sense, and goes back to the first one
found.
-/
def goBack (v : Nat) (lookahead : Subtree) (count : Nat) : ParseM Bool := do
  let a := (← read).automaton
  let place ← Stack.place v
  let passed := ((← Stack.head v).passed).getD #[]
  let made ← Stack.nodesSinceError v
  let cost ← Stack.errorCost v
  if lookahead.isError a then return false
  for p in passed do
    if p.state == Automaton.errorState || p.place.byte == place.byte then continue
    let depth := if made > 0 then p.depth + 1 else p.depth
    if ← standsAt count p.state place.byte then continue
    let newCost := cost + p.depth * costOfSkippedTree +
      (place.byte - p.place.byte) * costOfSkippedByte +
      (place.row - p.place.row) * costOfSkippedLine
    if ← isHopeless v newCost then break
    if a.hasActions p.state lookahead.symbol then
      if ← recoverTo v depth p.state then return true
  return false

def removeInactive (first : Nat) : ParseM Unit :=
  modify fun r =>
    { r with heads := (r.heads.toList.take first).toArray ++
        (r.heads.toList.drop first).toArray.filter (·.activity == .active) }

def isExtraToken (c : SymCode) : ParseM Bool := do
  let as := (← read).automaton.actions Automaton.startState c
  return as.back? == some .shiftExtra

def skipToken (v : Nat) (lookahead : Subtree) : ParseM Unit := do
  let a := (← read).automaton
  let place ← Stack.place v
  let made ← Stack.nodesSinceError v
  let t := if ← isExtraToken lookahead.symbol then lookahead.setExtra true else lookahead
  let single := Subtree.node a a.errorRepeat 0 place [t]
  let tree ←
    if made > 0 then
      let slices ← Stack.popCount v 1
      match slices[0]? with
      | none => pure single
      | some s =>
        Stack.keepFirst (s.head + 1)
        Stack.renumber s.head v
        pure (Subtree.node a a.errorRepeat 0 place (s.trees ++ [single]))
    else pure single
  Stack.push v (some tree) Automaton.errorState
  takeLayout v lookahead

def recover (v : Nat) (lookahead : Subtree) : ParseM Unit := do
  let a := (← read).automaton
  let count ← Stack.count
  let cost ← Stack.errorCost v
  let wentBack ← goBack v lookahead count
  removeInactive count
  if lookahead.symbol == a.numbering.stop then
    accept v [Subtree.node a a.errorSymbol 0 (← Stack.place v) []] lookahead
    return
  if wentBack && ((← Stack.count) > maxHeads || lookahead.info.changesLayout) then
    Stack.halt v
    return
  let newCost := cost + costOfSkippedTree + lookahead.totalBytes * costOfSkippedByte +
    lookahead.totalRows * costOfSkippedLine
  if ← isHopeless v newCost then
    Stack.halt v
    return
  skipToken v lookahead

/--
Tries to go on as if one more token stood in the text: the first token after which the lookahead leads to a
reduction and can then be read.
-/
def insertMissing (v : Nat) (lookahead : Subtree) : ParseM Bool := do
  let a := (← read).automaton
  let state ← Stack.state v
  for c in a.tokenOrder do
    let next := a.nextState state c
    if next != Automaton.errorState && next != state && a.reducesOn next lookahead.symbol then
      let place ← Stack.place v
      let w ← Stack.copy v
      let missing : Subtree :=
        .mk { symbol := c, before := place, start := place, stop := place, missing := true } []
      Stack.push w (some missing) next
      if ← reduceAll w (some lookahead.symbol) then return true
  return false

def handleError (v : Nat) (lookahead : Subtree) : ParseM Unit := do
  let before ← Stack.count
  let _ ← reduceAll v none
  let after ← Stack.count
  let mut inserted := false
  for w in v :: (List.range after).drop before do
    if !inserted then
      inserted ← insertMissing w lookahead
    Stack.push w none Automaton.errorState
  for _ in List.range (after - before) do
    let _ ← Stack.merge v before
  Stack.recordPassed v
  recover v lookahead

/-! The main loop. -/

def act (v : Nat) : Nat → Nat → Subtree → ParseM Unit
  | 0, _, lookahead => Stack.pause v lookahead
  | fuel + 1, state, lookahead => do
    let a := (← read).automaton
    let mut reduced := false
    let mut last : Option Nat := none
    for x in a.actions state lookahead.symbol do
      match x with
      | .shift next isRepetition =>
        if !isRepetition then
          shift v next lookahead false
          return
      | .shiftExtra =>
        shift v state lookahead true
        return
      | .reduce r =>
        reduced := true
        if let some w ← reduce v r then last := some w
      | .accept =>
        accept v [] lookahead
        return
      | .recover =>
        recover v lookahead
        return
    match last with
    | some w =>
      Stack.renumber w v
      act v fuel (← Stack.state v) lookahead
    | none =>
      if reduced then Stack.halt v
      else if lookahead.info.isKeyword && lookahead.symbol != a.word &&
          !a.isReserved state lookahead.symbol && a.hasActions state a.word then
        act v fuel state (lookahead.setSymbol a.word)
      else if state == Automaton.errorState then recover v lookahead
      else Stack.pause v lookahead

def advance (v : Nat) : ParseM Unit := do
  let state ← Stack.state v
  let lookahead ← Lex.next v state
  act v (64 * ((← get).nodes.size + 64)) state lookahead

def advanceFar (v : Nat) : Nat → Nat → ParseM Nat
  | 0, far => return far
  | fuel + 1, far => do
    if !(← Stack.isActive v) then return far
    advance v
    let byte := (← Stack.place v).byte
    if byte > far || (v > 0 && byte == far) then return byte
    advanceFar v fuel far

def advanceAll (fuel : Nat) : Nat → Nat → Nat → ParseM Nat
  | 0, _, far => return far
  | rounds + 1, v, far => do
    if (← Stack.count) ≤ v then return far
    let far ← advanceFar v fuel far
    advanceAll fuel rounds (v + 1) far

inductive Sifted where
  | kept
  | gone

/--
Compares the head `i` with the heads from `j` on before it. Drops the worse one, merges them, or puts the
better one first.
-/
def siftOne (mine : Standing) : Nat → Nat → Nat → ParseM (Sifted × Nat)
  | 0, i, _ => return (.kept, i)
  | fuel + 1, i, j => do
    if i ≤ j then return (.kept, i)
    match judge (← standing j) mine with
    | .takeLeft =>
      Stack.remove i
      return (.gone, i)
    | .preferLeft | .even =>
      if ← Stack.merge j i then return (.gone, i) else siftOne mine fuel i (j + 1)
    | .preferRight =>
      if ← Stack.merge i j then return (.gone, i)
      else
        Stack.swap i j
        siftOne mine fuel i (j + 1)
    | .takeRight =>
      Stack.remove j
      siftOne mine fuel (i - 1) j

def sift : Nat → Nat → Option Nat → ParseM (Option Nat)
  | 0, _, least => return least
  | fuel + 1, i, least => do
    if (← Stack.count) ≤ i then return least
    if ← Stack.isHalted i then
      Stack.remove i
      sift fuel i least
    else
      let s ← standing i
      let least := if s.inError then least else match least with
        | some c => some (min c s.cost)
        | none => some s.cost
      match ← siftOne s (2 * (i + 1)) i 0 with
      | (.kept, i) => sift fuel (i + 1) least
      | (.gone, i) => sift fuel i least

def takeUp : Nat → Nat → Bool → Nat → Option Nat → ParseM (Option Nat)
  | 0, _, _, _, least => return least
  | fuel + 1, i, running, count, least => do
    if count ≤ i then return least
    if ← Stack.isPaused i then
      if !running && (← get).accepted < maxHeads then
        let least ← Stack.errorCost i
        match ← Stack.resume i with
        | some lookahead => handleError i lookahead
        | none => pure ()
        takeUp fuel (i + 1) true count (some least)
      else
        Stack.remove i
        takeUp fuel i running (count - 1) least
    else takeUp fuel (i + 1) true count least

def condense : ParseM (Option Nat) := do
  let least ← sift (16 * ((← Stack.count) + 4)) 0 none
  Stack.keepFirst maxHeads
  let count ← Stack.count
  takeUp (2 * count + 2) 0 false count least

def loop (fuel : Nat) : Nat → Nat → ParseM Unit
  | 0, _ => return
  | rounds + 1, far => do
    let far ← advanceAll fuel fuel 0 far
    let count ← Stack.count
    let least ← condense
    match (← get).finished with
    | some t =>
      match least with
      | some c => if t.errorCost < c then return
      | none => return
    | none => pure ()
    if count == 0 then return
    loop fuel rounds far

end Engine

/--
The tree of a text. Every round reads a token or changes the layout, so the bound on the rounds is never
met; if it were, or if there is no tree, the text is one error.
-/
def parse (a : Automaton) (text : Array Char) : Subtree :=
  let fuel := 64 * (text.size + 64)
  let ((), run) := ((Engine.loop fuel fuel 0).run { automaton := a, text }).run {}
  run.finished.getD (Subtree.node a a.errorSymbol 0 {} [])

end CallFlow.Parser
