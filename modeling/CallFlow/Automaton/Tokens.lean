import CallFlow.Automaton.Merge

/-!
Which tokens are looked for where.

Keywords are read as words first and told apart afterwards, so among the tokens of a state the word
stands for them. After an error every token is looked for that cannot be taken for another.
-/
namespace CallFlow.Automaton

open CallFlow.Grammar CallFlow.Lexer

structure TokenInfo where
  numbering : Numbering
  nfa : Nfa
  table : ConflictTable
  word : Nat
  keywords : Array Bool
  together : Array SymSet
deriving Inhabited

namespace TokenInfo

def followers (ctx : Context) (g : Productions) : Array SymSet :=
  let n := ctx.numbering
  let all : SymSet := (List.range n.terminals).foldl (fun s i => s ||| SymSet.single i) 0
  let inlinedSteps := g.vars.toList.flatMap fun v => v.productions.flatMap fun p =>
    ItemTable.family g ItemTable.maxNesting 0 p
  let pairs := inlinedSteps.flatMap fun p => p.steps.zip p.steps.tail
  let tokensOf (s : SymSet) : SymSet := (s >>> (n.externals + 1)) &&& all
  let base := pairs.foldl (fun (sets : Array SymSet) (a, b) =>
    let left := tokensOf (ctx.last.getD (n.code a.sym) 0)
    let right := tokensOf (ctx.first.getD (n.code b.sym) 0)
    (List.range n.terminals).foldl (fun sets i =>
      if SymSet.has left i then sets.modify i (· ||| right) else sets) sets)
    (Array.replicate n.terminals 0)
  g.extras.foldl (fun sets e => match e with
    | .token i => (sets.map (· ||| SymSet.single i)).setIfInBounds i all
    | _ => sets) base

def lettersAfter (m : Nfa) (followers : Array SymSet) : Array LetterSet :=
  let starts := (Array.range m.tokens.size).map m.firstLetters
  followers.map fun s => (List.range m.tokens.size).foldl (fun acc i =>
    if SymSet.has s i then acc ∪ starts.getD i .empty else acc) .empty

def startsLikeWord (m : Nfa) (t : Nat) : Bool :=
  let letters : LetterSet := .range 'a' 'z' ∪ .range 'A' 'Z' ∪ .ofString "_" ∪
    .single Letter.wordStart
  (m.transitions (m.closure [m.starts.getD t 0])).all fun x =>
    x.isBlank || (x.letters.diff letters).isEmpty

def keywordsOf (m : Nfa) (table : ConflictTable) (word : Nat) (n : Numbering)
    (statesWith : Nat → Nat → Bool) : Array Bool :=
  let all := List.range m.tokens.size
  let candidate := (Array.range m.tokens.size).map fun i =>
    i != word && startsLikeWord m i && table.matchesSame i word &&
      !(table.status i word).differs
  let isCandidate (i : Nat) : Bool := candidate.getD i false
  candidate.mapIdx fun i c => c && n.terminals != 0 &&
    !(all.any fun j => j != i && isCandidate j && table.matchesSame j i) &&
    all.all fun j => isCandidate j || !statesWith i j ||
      table.status i j == table.status word j

def togetherOf (n : Numbering) (rows : Array Row) : Array SymSet :=
  (Array.range n.terminals).map fun i =>
    rows.foldl (fun s r =>
      if SymSet.has r.tokens (n.token i) then s ||| (r.tokens >>> (n.externals + 1)) else s) 0

def ofRows (ctx : Context) (g : Productions) (rows : Array Row) : TokenInfo :=
  let n := ctx.numbering
  let nfa := Nfa.ofTokens g.blanks (g.terminals.map (·.token))
  let after := lettersAfter nfa (followers ctx g)
  let table := ConflictTable.ofNfa nfa fun i => after.getD i .empty
  let without := rows.filter fun r => !SymSet.has r.tokens (n.token g.word)
  let apart := togetherOf n without
  { numbering := n, nfa, table, word := g.word
    keywords := keywordsOf nfa table g.word n fun i j => SymSet.has (apart.getD i 0) j
    together := togetherOf n rows }

def isKeyword (k : TokenInfo) (i : Nat) : Bool := k.keywords.getD i false

def areTogether (k : TokenInfo) (i j : Nat) : Bool := SymSet.has (k.together.getD i 0) j

/--
The tokens to look for after an error: first those that no other token can be mistaken for, then those that
get in the way of none of them.
-/
def afterError (k : TokenInfo) : List Nat :=
  let all := List.range k.nfa.tokens.size
  let free := all.filter fun i => !all.any fun j =>
    j != i && !k.areTogether i j && k.table.differsInLength i j
  all.filter fun i => free.contains i || k.isKeyword i || i == k.word ||
    !free.any fun t => !k.areTogether i t && k.table.conflicts i t

def rules (k : TokenInfo) (g : Productions) : TokenRules :=
  let n := k.numbering
  let layout := g.externals.toList.zipIdx.map fun (e, i) => match e.same with
    | some t => n.token t
    | none => i
  { numbering := n
    fixed := (List.range n.externals ++ layout).foldl (fun s c => s ||| SymSet.single c) 0
    blocked := (Array.range n.firstRule).map fun c =>
      if c ≤ n.stop then 0
      else
        let i := c - n.externals - 1
        (List.range n.terminals).foldl (fun s j =>
          let apart := (j == k.word && k.isKeyword i) || (i == k.word && k.isKeyword j)
          if !apart && (k.table.conflicts i j || k.table.matchesSame i j)
          then s ||| SymSet.single (n.token j) else s) 0 }

def errorRow (k : TokenInfo) (g : Productions) (row : Row) : Row :=
  let n := k.numbering
  let externals := g.externals.toList.zipIdx.filterMap fun (e, i) =>
    if e.same.isNone then some i else none
  let codes := (k.afterError.map n.token ++ externals).filter fun c =>
    !SymSet.has row.tokens c
  let codes := n.stop :: codes
  { row with
    actions := codes.foldl (fun as c => as.setIfInBounds c #[.recover]) row.actions
    tokens := codes.foldl (fun s c => s ||| SymSet.single c) row.tokens }

end TokenInfo

end CallFlow.Automaton
