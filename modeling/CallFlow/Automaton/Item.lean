import CallFlow.Grammar.Production
import Std.Data.HashMap

/-!
Items: productions with a mark for how far they have been read.

Two items that differ only in symbols already read lead to the same actions, so they are one item
here. The items are numbered in a fixed order, by the mark first; that order decides in which order
the reductions of an ambiguous state are tried.
-/
namespace CallFlow.Automaton

open CallFlow.Grammar

/--
A symbol's number: external tokens, the end, tokens, rules.
-/
abbrev SymCode := Nat

structure Numbering where
  externals : Nat
  terminals : Nat
  vars : Nat
deriving Inhabited

namespace Numbering

def ofProductions (g : Productions) : Numbering :=
  ⟨g.externals.size, g.terminals.size, g.vars.size⟩

def stop (n : Numbering) : SymCode := n.externals
def token (n : Numbering) (i : Nat) : SymCode := n.externals + 1 + i
def firstRule (n : Numbering) : SymCode := n.externals + 1 + n.terminals
def rule (n : Numbering) (i : Nat) : SymCode := n.firstRule + i
def total (n : Numbering) : Nat := n.firstRule + n.vars

def code (n : Numbering) : Sym → SymCode
  | .external i => i
  | .stop => n.stop
  | .token i => n.token i
  | .rule i => n.rule i

def isRule (n : Numbering) (c : SymCode) : Bool := n.firstRule ≤ c

end Numbering

/--
What the children of a production are called: the alternative names and the fields, by the position among
the children.
-/
structure Labels where
  renames : Array (Option Alias) := #[]
  fields : Array (Option String) := #[]
deriving Inhabited

abbrev SymSet := Nat

structure Item where
  /-- The variable whose production it is; the number after the last one for the start item. -/
  owner : Nat
  read : Nat
  next : Option SymCode
  /-- The item after reading `next`. -/
  succ : Nat
  /-- The items that stand for this one where `next` is replaced by its alternatives. -/
  expansions : Array Nat
  after : Option SymCode
  prec : Int
  assoc : Option Assoc
  dynamic : Int
  labels : Nat
deriving Inhabited

namespace Item

def isDone (it : Item) : Bool := it.next.isNone

end Item

structure ItemTable where
  items : Array Item
  labels : Array Labels
  start : Nat
  initial : Array (Array Nat)
deriving Inhabited

namespace ItemTable

/--
The productions that result when the symbol at position `k` is replaced by its alternatives. A name and a
field of the replaced symbol pass to what takes its place, a precedence and an associativity to the last
symbol of it.
-/
def spliceAt (g : Productions) (k : Nat) : Nat → Production → List Production
  | 0, p => [p]
  | fuel + 1, p =>
    match p.steps[k]? with
    | some ⟨.rule v, prec, assoc, rename, field⟩ =>
      if .rule v ∈ g.inlined then
        ((g.vars[v]?.map (·.productions)).getD []).flatMap fun q =>
          let steps := q.steps.map fun s =>
            { s with rename := rename <|> s.rename, field := field <|> s.field }
          let steps := steps.zipIdx.map fun (s, i) =>
            if i + 1 == steps.length then
              { s with prec := s.prec <|> prec, assoc := s.assoc <|> assoc }
            else s
          spliceAt g k fuel
            { steps := p.steps.take k ++ steps ++ p.steps.drop (k + 1)
              dynamic := Productions.stronger p.dynamic q.dynamic }
      else [p]
    | _ => [p]

def maxNesting : Nat := 64

def isInlinedAt (g : Productions) (p : Production) (k : Nat) : Bool :=
  match p.steps[k]? with
  | some s => s.sym ∈ g.inlined
  | none => false

def family (g : Productions) : Nat → Nat → Production → List Production
  | 0, _, p => [p]
  | fuel + 1, k, p =>
    if isInlinedAt g p k then
      p :: (spliceAt g k maxNesting p).flatMap (family g fuel (k + 1))
    else if k < p.steps.length then family g fuel (k + 1) p
    else [p]

def isHidden (g : Productions) : Sym → Bool
  | .rule v => match g.vars[v]? with
    | some x => !x.visibility.isVisible
    | none => false
  | _ => false

def hiddenFieldsStep (g : Productions) (fs : Array (List String)) : Array (List String) :=
  g.vars.map fun v => (v.productions.flatMap fun p => p.steps.flatMap fun s =>
    s.field.toList ++ match s.sym with
      | .rule w => if isHidden g s.sym && s.rename.isNone then fs[w]?.getD [] else []
      | _ => []).eraseDups

def hiddenFields (g : Productions) : Array (List String) :=
  maxNesting.repeat (hiddenFieldsStep g) (g.vars.map fun _ => [])

def inherited (g : Productions) (fs : Array (List String)) (s : Sym) : List String :=
  match s with
  | .rule v => if isHidden g s then fs[v]?.getD [] else []
  | _ => []

def rank [BEq α] (sorted : List α) : Option α → Nat
  | none => 0
  | some a => 1 + sorted.idxOf a

structure Ranks where
  aliases : List Alias
  fields : List String

def Ranks.ofProductions (g : Productions) : Ranks :=
  let steps := g.vars.toList.flatMap fun v => v.productions.flatMap (·.steps)
  { aliases := ((steps.filterMap (·.rename)).eraseDups).mergeSort fun a b =>
      a.name < b.name || (a.name == b.name && (!a.named || b.named))
    fields := ((steps.filterMap (·.field)).eraseDups).mergeSort fun a b => a ≤ b }

def intKey (i : Int) : Nat := (i + 1000).toNat

def assocKey : Option Assoc → Nat
  | none => 0
  | some .left => 1
  | some .right => 2

def precKey : Option Int → Nat
  | none => 0
  | some i => intKey i

/--
A list of numbers that says all that matters of an item. The order of the items is that of their keys.
-/
def key (n : Numbering) (ranks : Ranks) (inherits : Sym → Bool) (owner : Nat) (p : Production)
    (read : Nat) : List Nat :=
  let before := p.steps.take read
  let last := before.getLast?
  let tells := before.any fun s => inherits s.sym
  [read, owner, intKey p.dynamic, p.steps.length, precKey (last.bind (·.prec)),
    assocKey (last.bind (·.assoc)), if tells then 1 else 0] ++
  (before.flatMap fun s =>
    [rank ranks.aliases s.rename, rank ranks.fields s.field] ++
      if tells then [n.code s.sym] else []) ++
  ((p.steps.drop read).flatMap fun s =>
    [n.code s.sym, precKey s.prec, assocKey s.assoc, rank ranks.aliases s.rename,
      rank ranks.fields s.field])

def labelKey (g : Productions) (fs : Array (List String)) (ranks : Ranks) (p : Production) :
    List (List Nat) :=
  (p.steps.zipIdx.map fun (s, i) =>
    (i, [rank ranks.aliases s.rename, rank ranks.fields s.field] ++
      (inherited g fs s.sym).map fun f => rank ranks.fields (some f))).filterMap fun (i, k) =>
    if k.all (· == 0) then none else some (i :: k)

structure Draft where
  key : List Nat
  owner : Nat
  production : Production
  read : Nat

def lexLt : List Nat → List Nat → Bool
  | [], [] => false
  | [], _ :: _ => true
  | _ :: _, [] => false
  | a :: as, b :: bs => a < b || (a == b && lexLt as bs)

def dedup (ds : List Draft) : List Draft :=
  ds.foldr (fun d acc => match acc with
    | e :: _ => if d.key == e.key then d :: acc.tail else d :: acc
    | [] => [d]) []

def ofProductions (g : Productions) : ItemTable :=
  let n := Numbering.ofProductions g
  let ranks := Ranks.ofProductions g
  let fs := hiddenFields g
  let inherits (s : Sym) : Bool := !(inherited g fs s).isEmpty
  let startOwner := g.vars.size
  let startProduction : Production := { steps := [{ sym := .rule 0 }] }
  let keyOf := key n ranks inherits
  let owned : List (Nat × Production) :=
    (startOwner, startProduction) :: (g.vars.toList.zipIdx.flatMap fun (v, i) =>
      v.productions.flatMap fun p => (family g maxNesting 0 p).map (i, ·))
  let drafts : List Draft := owned.flatMap fun (o, p) =>
    (List.range (p.steps.length + 1)).map fun k => ⟨keyOf o p k, o, p, k⟩
  let sorted := dedup (drafts.mergeSort fun a b => !lexLt b.key a.key)
  let ids : Std.HashMap (List Nat) Nat :=
    sorted.zipIdx.foldl (fun m (d, i) => m.insert d.key i) {}
  let idOf (o : Nat) (p : Production) (k : Nat) : Nat := (ids[keyOf o p k]?).getD 0
  let labelKeys : List (List (List Nat)) :=
    [] :: ((sorted.map fun d => labelKey g fs ranks d.production).eraseDups.filter (· != []))
  let labelIds : Std.HashMap (List (List Nat)) Nat :=
    labelKeys.zipIdx.foldl (fun m (k, i) => m.insert k i) {}
  let labelId (p : Production) : Nat := (labelIds[labelKey g fs ranks p]?).getD 0
  let items := sorted.toArray.map fun d =>
    let p := d.production
    let steps := p.steps
    let last := (steps.take d.read).getLast?
    { owner := d.owner
      read := d.read
      next := (steps[d.read]?).map fun s => n.code s.sym
      succ := if d.read < steps.length then idOf d.owner p (d.read + 1) else 0
      expansions := if isInlinedAt g p d.read then
          (spliceAt g d.read maxNesting p).toArray.map fun q => idOf d.owner q d.read
        else #[]
      after := (steps[d.read + 1]?).map fun s => n.code s.sym
      prec := ((last.bind (·.prec)).getD 0 : Int)
      assoc := last.bind (·.assoc)
      dynamic := p.dynamic
      labels := labelId p : Item }
  let labels : Array Labels := sorted.foldl (fun ls d =>
    ls.modify (labelId d.production) fun _ =>
      { renames := (d.production.steps.map (·.rename)).toArray
        fields := (d.production.steps.map (·.field)).toArray })
    (labelKeys.toArray.map fun _ => {})
  { items
    labels := labels.modify 0 fun _ => {}
    start := idOf startOwner startProduction 0
    initial := g.vars.mapIdx fun i v =>
      (v.productions.map fun p => idOf i p 0).toArray }

end ItemTable

end CallFlow.Automaton
