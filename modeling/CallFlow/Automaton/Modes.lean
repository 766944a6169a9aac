import CallFlow.Automaton.Tokens
import CallFlow.Lexer.Dfa

/-!
The finished automaton.

States share a token automaton where none of their tokens can be mistaken for a token of another.
-/
namespace CallFlow.Automaton

open CallFlow.Grammar CallFlow.Lexer

structure Mode where
  start : Nat
  layout : Nat
deriving Inhabited, DecidableEq

structure Kind where
  name : String
  visible : Bool
  named : Bool
deriving Inhabited

end CallFlow.Automaton

namespace CallFlow

open CallFlow.Automaton CallFlow.Lexer

structure Automaton where
  numbering : Numbering
  rows : Array Row
  modes : Array Mode
  lexer : Array DfaState
  kinds : Array Kind
  labels : Array Labels
  order : Array Nat
  tokenOrder : List SymCode
  word : SymCode
  keywords : Std.HashMap String SymCode
  reserved : SymSet
deriving Inhabited

end CallFlow

namespace CallFlow.Automaton

open CallFlow.Grammar CallFlow.Lexer

namespace TokenInfo

def unmixable (k : TokenInfo) : Array SymSet :=
  let all := List.range k.nfa.tokens.size
  all.toArray.map fun i => all.foldl (fun s j =>
    if k.table.conflicts i j || (k.table.status i j).isPrefix ||
      (!k.areTogether i j && (k.table.overlaps j i || k.table.overlaps i j))
    then s ||| SymSet.single j else s) 0

def canMix (k : TokenInfo) (bad : Array SymSet) (s t : SymSet) : Bool :=
  (List.range k.nfa.tokens.size).all fun i =>
    match SymSet.has s i, SymSet.has t i with
    | true, false => (bad.getD i 0 &&& t) == 0
    | false, true => (bad.getD i 0 &&& s) == 0
    | _, _ => true

/--
The tokens to look for in a state; the bit above the last token stands for the end.
-/
def lookFor (k : TokenInfo) (r : Row) : SymSet :=
  let n := k.numbering
  let s := (List.range n.terminals).foldl (fun s i =>
    if SymSet.has r.tokens (n.token i) then
      s ||| SymSet.single (if k.isKeyword i then k.word else i)
    else s) 0
  let s := if r.reserves then s ||| SymSet.single k.word else s
  if SymSet.has r.tokens n.stop then s ||| SymSet.single n.terminals else s

def place (k : TokenInfo) (bad : Array SymSet) (s : SymSet) (sets : Array SymSet) :
    Array SymSet × Nat :=
  match sets.findIdx? fun t => k.canMix bad t s with
  | some i => (sets.modify i (· ||| s), i)
  | none => (sets.push s, sets.size)

def lexer (k : TokenInfo) (rows : Array Row) : Array DfaState × Array Nat :=
  let n := k.numbering
  let bad := k.unmixable
  let (sets, places) := rows.foldl (fun (acc : Array SymSet × Array Nat) r =>
    let (sets, i) := k.place bad (k.lookFor r) acc.1
    (sets, acc.2.push i)) (#[], #[])
  let (d, starts) := sets.foldl (fun (acc : Dfa × Array Nat) s =>
    let tokens := (List.range n.terminals).filter fun i => SymSet.has s i
    let (d, i) := acc.1.addTokens k.nfa tokens (SymSet.has s n.terminals)
    (d, acc.2.push i)) ({}, #[])
  (d.states, places.map fun i => starts.getD i 0)

def layoutOf (k : TokenInfo) (g : Productions) (r : Row) : Nat :=
  g.externals.toList.zipIdx.foldl (fun s (e, i) =>
    let c := match e.same with
      | some t => k.numbering.token t
      | none => i
    if SymSet.has r.tokens c then s ||| SymSet.single i else s) 0

end TokenInfo

def kindsOf (g : Productions) : Array Kind :=
  let kind (sym : Sym) (name : String) (v : Visibility) (named : Bool) : Kind :=
    match g.usualNames.lookup sym with
    | some a => ⟨a.name, true, a.named⟩
    | none => ⟨name, v.isVisible, named⟩
  (g.externals.mapIdx fun i e => kind (.external i) e.name e.visibility (e.visibility == .named)) ++
  #[⟨"end", false, false⟩] ++
  (g.terminals.mapIdx fun i t => kind (.token i) t.name t.visibility (t.visibility == .named)) ++
  (g.vars.mapIdx fun i v => kind (.rule i) v.name v.visibility (v.visibility == .named)) ++
  #[⟨"ERROR", true, true⟩, ⟨"ERROR", false, false⟩]

def tokenOrderOf (n : Numbering) (g : Productions) : List SymCode :=
  let layout := g.externals.toList.zipIdx.filterMap fun (e, i) =>
    if e.same.isNone then some i else none
  let rest := (List.range n.terminals).filter (· != g.word)
  n.token g.word :: rest.map n.token ++ layout

def orderOf (n : Numbering) (tokens : List SymCode) : Array Nat :=
  let codes := n.stop :: tokens ++ (List.range n.vars).map n.rule ++ [n.total + 1, n.total]
  codes.zipIdx.foldl (fun (order : Array Nat) (c, i) => order.setIfInBounds c i)
    (Array.replicate (n.total + 2) 0)

@[noinline] def ofGrammar (grammar : Grammar) : Automaton :=
  let g := Productions.ofGrammar grammar
  let ctx := Context.ofProductions g
  let n := ctx.numbering
  let rows := (Builder.ofContext ctx).states.map (Row.ofState n)
  let k := TokenInfo.ofRows ctx g rows
  let rows := mergeRows (k.rules g) g (rows.modify 0 (k.errorRow g))
  let (dfa, starts) := k.lexer rows
  let tokens := tokenOrderOf n g
  { numbering := n
    rows
    modes := rows.mapIdx fun i r => ⟨starts.getD i 0, k.layoutOf g r⟩
    lexer := dfa
    kinds := kindsOf g
    labels := ctx.table.labels
    order := orderOf n tokens
    tokenOrder := tokens
    word := ctx.word
    keywords := (List.range n.terminals).foldl (fun m i =>
      if k.isKeyword i then match (g.terminals.getD i default).token.literal with
        | some s => m.insert s (n.token i)
        | none => m
      else m) {}
    reserved := g.reserved.foldl (fun s i => s ||| SymSet.single (n.token i)) 0 }

/-! Look-ups. -/

def errorState : Nat := 0
def startState : Nat := 1

def errorSymbol (a : Automaton) : SymCode := a.numbering.total

/--
The symbol of the hidden nodes that collect such text.
-/
def errorRepeat (a : Automaton) : SymCode := a.numbering.total + 1

def actions (a : Automaton) (state : Nat) (c : SymCode) : Array Action :=
  match a.rows[state]? with
  | some r => r.actions.getD c #[]
  | none => #[]

def goto (a : Automaton) (state : Nat) (c : SymCode) : Nat :=
  match a.rows[state]? with
  | some r => (r.gotos.getD (c - a.numbering.firstRule) none).getD errorState
  | none => errorState

def nextState (a : Automaton) (state : Nat) (c : SymCode) : Nat :=
  if a.numbering.total ≤ c then errorState
  else if a.numbering.isRule c then a.goto state c
  else match (a.actions state c).back? with
    | some (.shift q _) => q
    | some .shiftExtra => state
    | _ => errorState

def hasActions (a : Automaton) (state : Nat) (c : SymCode) : Bool :=
  !(a.actions state c).isEmpty

def reducesOn (a : Automaton) (state : Nat) (c : SymCode) : Bool :=
  match (a.actions state c)[0]? with
  | some (Action.reduce _) => true
  | _ => false

def isReserved (a : Automaton) (state : Nat) (c : SymCode) : Bool :=
  match a.rows[state]? with
  | some r => r.reserves && SymSet.has a.reserved c
  | none => false

def kind (a : Automaton) (c : SymCode) : Kind := a.kinds.getD c ⟨"", false, false⟩

end CallFlow.Automaton
