import CallFlow.Grammar.Basic

/-!
From rules to productions.

`Productions.ofGrammar` numbers the tokens in the order in which the rules first mention them, turns
each repetition into a rule of its own, and spells each rule out as a list of productions. A
repetition is a binary tree: `R → R R` beside `R → r`.
-/
namespace CallFlow.Grammar

open CallFlow.Lexer

inductive Sym where
  | external (i : Nat)
  | stop
  | token (i : Nat)
  | rule (i : Nat)
deriving DecidableEq, Repr, Inhabited

inductive Visibility where
  | named
  | anonymous
  | hidden
  /-- Hidden, and made by the grammar's preparation and not by its author. -/
  | auxiliary
deriving DecidableEq, Repr, Inhabited

def Visibility.isVisible : Visibility → Bool
  | .named | .anonymous => true
  | .hidden | .auxiliary => false

structure Step where
  sym : Sym
  prec : Option Int := none
  assoc : Option Assoc := none
  rename : Option Alias := none
  field : Option String := none
deriving DecidableEq, Repr, Inhabited

structure Production where
  steps : List Step
  dynamic : Int := 0
deriving DecidableEq, Repr, Inhabited

structure Variable where
  name : String
  visibility : Visibility
  productions : List Production
deriving Repr, Inhabited

structure Terminal where
  name : String
  visibility : Visibility
  token : Token
deriving Repr, Inhabited

structure External where
  name : String
  visibility : Visibility
  /-- The ordinary token that it stands for, if any. -/
  same : Option Nat
deriving Repr, Inhabited

structure Productions where
  vars : Array Variable
  terminals : Array Terminal
  externals : Array External
  blanks : Pattern
  extras : List Sym
  supertypes : List Sym
  inlined : List Sym
  word : Nat
  reserved : List Nat
  /-- What a symbol is called that never shows under its own name. -/
  usualNames : List (Sym × Alias)
deriving Inhabited

namespace Productions

def isHiddenName (name : String) : Bool := name.startsWith "_"

/-! Tokens. -/

structure Mention where
  token : Token
  count : Nat
  name : String
  visibility : Visibility
deriving Inhabited

def mention (owner : String) (ms : Array Mention) (t : Token) : Array Mention :=
  match ms.findIdx? (·.token == t) with
  | some i => ms.modify i fun m => { m with count := m.count + 1 }
  | none =>
    match t.literal with
    | some s => ms.push ⟨t, 1, s, .anonymous⟩
    | none => ms.push ⟨t, 1, owner ++ "_token", .auxiliary⟩

def mentionAtoms (owner : String) (ms : Array Mention) (as : List Atom) : Array Mention :=
  as.foldl (fun ms a => match a with
    | .token t => mention owner ms t
    | .ref _ => ms) ms

def mentions (g : Grammar) : Array Mention :=
  let ms := g.rules.foldl (fun ms (name, r) => mentionAtoms name ms r.atoms) #[]
  mentionAtoms "" ms g.externals

/--
The token that a rule consists of, if nothing else mentions it: then the rule is no rule but the token's
name. The start rule stays a rule.
-/
def namedToken? (ms : Array Mention) (isStart : Bool) (name : String) (r : Rule Atom) :
    Option Nat :=
  match r with
  | .atom (.token t) => do
    let i ← ms.findIdx? (·.token == t)
    let m ← ms[i]?
    if !isStart && m.count == 1 && (m.visibility == .auxiliary || !isHiddenName name) then some i
    else none
  | _ => none

def namedTokens (g : Grammar) (ms : Array Mention) : List (String × Nat) :=
  g.rules.zipIdx.filterMap fun ((name, r), i) =>
    (namedToken? ms (i == 0) name r).map (name, ·)

/-! Repetitions. -/

/--
Replaces the repetitions of a rule by variables that begin at `base`; equal repetitions share one. `bodies`
holds what they repeat.
-/
def expandRepeats (base : Nat) : Rule Sym → Array (Rule Sym) → Rule Sym × Array (Rule Sym)
  | .seq l r, bodies =>
    let (l, bodies) := expandRepeats base l bodies
    let (r, bodies) := expandRepeats base r bodies
    (.seq l r, bodies)
  | .choice l r, bodies =>
    let (l, bodies) := expandRepeats base l bodies
    let (r, bodies) := expandRepeats base r bodies
    (.choice l r, bodies)
  | .mark m r, bodies =>
    let (r, bodies) := expandRepeats base r bodies
    (.mark m r, bodies)
  | .many1 r, bodies =>
    let (r, bodies) := expandRepeats base r bodies
    match bodies.findIdx? (· == r) with
    | some i => (.atom (.rule (base + i)), bodies)
    | none => (.atom (.rule (base + bodies.size)), bodies.push r)
  | r, bodies => (r, bodies)

/-! Productions. -/

structure Marks where
  prec : Option Int := none
  assoc : Option Assoc := none
  rename : Option Alias := none
  field : Option String := none

def Marks.enter (outer : Marks) (m : Mark) : Marks where
  prec := m.prec <|> outer.prec
  assoc := m.assoc <|> outer.assoc
  rename := m.rename <|> outer.rename
  field := m.field <|> outer.field

def modifyLast (f : Step → Step) (steps : Array Step) : Array Step :=
  steps.modify (steps.size - 1) f

def stronger (a b : Int) : Int := if b.natAbs > a.natAbs then b else a

/--
Appends the steps of a rule without choices. The last step inside a mark has the mark's precedence and
associativity only if nothing follows it in the production.
-/
def flatten (marks : Marks) (atEnd : Bool) :
    Rule Sym → Array Step × Int → (Array Step × Int) × Bool
  | .seq l r, acc =>
    let (acc, pushedLeft) := flatten marks false l acc
    let (acc, pushedRight) := flatten marks atEnd r acc
    (acc, pushedLeft || pushedRight)
  | .mark m r, (steps, dynamic) =>
    let ((steps, dynamic), pushed) :=
      flatten (marks.enter m) atEnd r (steps, stronger dynamic m.dynamic)
    let leave := pushed && !atEnd
    let steps := if leave && m.prec.isSome
      then modifyLast (fun s => { s with prec := marks.prec }) steps else steps
    let steps := if leave && m.assoc.isSome
      then modifyLast (fun s => { s with assoc := marks.assoc }) steps else steps
    ((steps, dynamic), pushed)
  | .atom sym, (steps, dynamic) =>
    ((steps.push ⟨sym, marks.prec, marks.assoc, marks.rename, marks.field⟩, dynamic), true)
  | _, acc => (acc, false)

def productionOf (r : Rule Sym) : Production :=
  let ((steps, dynamic), _) := flatten {} true r (#[], 0)
  { steps := steps.toList, dynamic }

def productionsOf (r : Rule Sym) : List Production :=
  (r.alternatives.map productionOf).foldl (fun ps p => if p ∈ ps then ps else ps ++ [p]) []

/-! Usual names. -/

structure Usage where
  bare : Bool := false
  names : List (Alias × Nat) := []
deriving Inhabited

def Usage.add (u : Usage) : Option Alias → Usage
  | none => { u with bare := true }
  | some a =>
    if u.names.any (·.1 == a) then
      { u with names := u.names.map fun (b, n) => if b == a then (b, n + 1) else (b, n) }
    else { u with names := u.names ++ [(a, 1)] }

def Usage.usual (u : Usage) : Option Alias :=
  if u.bare then none
  else (u.names.foldl (fun best (a, n) => match best with
    | some (_, m) => if n > m then some (a, n) else best
    | none => some (a, n)) none).map (·.1)

def usualNamesOf (vars : List Variable) (inlined extras : List Sym) : List (Sym × Alias) :=
  let uses := (vars.flatMap fun v => v.productions.flatMap fun p => p.steps).filter
    fun s => s.sym ∉ inlined
  let syms := (uses.map (·.sym)).eraseDups
  syms.filterMap fun sym =>
    let u : Usage := (uses.filter (·.sym == sym)).foldl (fun (u : Usage) s => u.add s.rename) {}
    let u := if sym ∈ extras then u.add none else u
    u.usual.map (sym, ·)

def isRedundant (usual : List (Sym × Alias)) (ps : List Production) (i j : Nat) (s : Step) : Bool :=
  match s.rename with
  | none => false
  | some a =>
    usual.lookup s.sym == some a &&
    !ps.zipIdx.any fun (p, k) => k != i && match p.steps[j]? with
      | some t => t.rename == some a && usual.lookup t.sym != some a
      | none => false

def dropUsual (usual : List (Sym × Alias)) (v : Variable) : Variable :=
  { v with productions := v.productions.zipIdx.map fun (p, i) =>
      { p with steps := p.steps.zipIdx.map fun (s, j) =>
          if isRedundant usual v.productions i j s then { s with rename := none } else s } }

/--
The productions of a grammar. A name that is defined nowhere stands for the end of the text.
-/
def ofGrammar (g : Grammar) : Productions :=
  let ms := mentions g
  let named := namedTokens g ms
  let rules := g.rules.filter fun (name, _) => (named.lookup name).isNone
  let resolveName (name : String) : Sym :=
    match named.lookup name with
    | some i => .token i
    | none => match rules.findIdx? (·.1 == name) with
      | some i => .rule i
      | none => match g.externals.findIdx? (· == .ref name) with
        | some i => .external i
        | none => .stop
  let tokenIndex (t : Token) : Option Nat := ms.findIdx? (·.token == t)
  let resolve : Atom → Sym
    | .ref name => resolveName name
    | .token t => match tokenIndex t with
      | some i => .token i
      | none => .stop
  let (expanded, bodies) := rules.foldl (fun (acc : Array (Rule Sym) × Array (Rule Sym)) (_, r) =>
    let (r, bodies) := expandRepeats rules.length (r.map resolve) acc.2
    (acc.1.push r, bodies)) (#[], #[])
  let supertypes := g.supertypes.map resolveName
  let inlined := g.inlined.map resolveName
  let extras := g.extras.map resolveName
  let written : List Variable := (rules.zip expanded.toList).map fun ((name, _), r) =>
    { name, productions := productionsOf r
      visibility := if isHiddenName name || g.supertypes.contains name then .hidden else .named }
  let repeats : List Variable := bodies.toList.zipIdx.map fun (body, i) =>
    let self := .atom (.rule (rules.length + i))
    { name := "_repeat", visibility := .auxiliary
      productions := productionsOf (.choice (.seq self self) body) }
  let vars := written ++ repeats
  let usual := usualNamesOf vars inlined extras
  { vars := (vars.map (dropUsual usual)).toArray
    terminals := ms.mapIdx fun i m =>
      match named.find? (·.2 == i) with
      | some (name, _) =>
        ⟨name, if isHiddenName name then .hidden else .named, m.token⟩
      | none => ⟨m.name, m.visibility, m.token⟩
    externals := (g.externals.map fun a => match a with
      | .ref name => match resolveName name with
        | .token i => ⟨name, .named, some i⟩
        | _ => ⟨name, if isHiddenName name then .hidden else .named, none⟩
      | .token t => ⟨t.literal.getD "", .anonymous, tokenIndex t⟩ : List External).toArray
    blanks := g.blanks
    extras, supertypes, inlined
    word := match resolveName g.word with
      | .token i => i
      | _ => 0
    reserved := g.reserved.filterMap fun s => tokenIndex (.ofString s)
    usualNames := usual }

end Productions

end CallFlow.Grammar
