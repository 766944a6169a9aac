/-!
Grammar rules: what may stand where, and how a conflict between two readings is settled.

A `Rule` is built from atoms (names of other rules, literal tokens, token patterns) by sequence,
choice and repetition. A `Mark` attaches a precedence, an associativity, another name for a node or
a field name to the part that it encloses; an inner mark wins over an outer one.
-/
namespace CallFlow.Grammar

inductive Assoc where
  | left
  | right
deriving DecidableEq, Repr, Inhabited

structure Alias where
  name : String
  named : Bool
deriving DecidableEq, Repr, Inhabited

structure Mark where
  /-- Decides between a shift and a reduction while the automaton is built. -/
  prec : Option Int := none
  assoc : Option Assoc := none
  /-- Decides between two finished readings of the same text. -/
  dynamic : Int := 0
  rename : Option Alias := none
  field : Option String := none
deriving DecidableEq, Repr, Inhabited

inductive Rule (α : Type) where
  | blank
  | atom (a : α)
  | seq (l r : Rule α)
  | choice (l r : Rule α)
  | many1 (r : Rule α)
  | mark (m : Mark) (r : Rule α)
deriving DecidableEq, Repr, Inhabited

namespace Rule

variable {α β : Type}

def seqs : List (Rule α) → Rule α
  | [] => .blank
  | [r] => r
  | r :: rs => .seq r (seqs rs)

def oneOf : List (Rule α) → Rule α
  | [] => .blank
  | [r] => r
  | r :: rs => .choice r (oneOf rs)

def opt (r : Rule α) : Rule α := .choice r .blank

def many (r : Rule α) : Rule α := .choice (.many1 r) .blank

def sepBy1 (sep r : Rule α) : Rule α := .seq r (many (.seq sep r))

def renamed (name : String) (r : Rule α) : Rule α :=
  .mark { rename := some ⟨name, true⟩ } r

def field (name : String) (r : Rule α) : Rule α := .mark { field := some name } r

def prec (n : Int) (r : Rule α) : Rule α := .mark { prec := some n } r
def precLeft (n : Int) (r : Rule α) : Rule α := .mark { prec := some n, assoc := some .left } r
def precRight (n : Int) (r : Rule α) : Rule α := .mark { prec := some n, assoc := some .right } r
def dynamic (n : Int) (r : Rule α) : Rule α := .mark { dynamic := n } r

def map (f : α → β) : Rule α → Rule β
  | blank => .blank
  | atom a => .atom (f a)
  | seq l r => .seq (l.map f) (r.map f)
  | choice l r => .choice (l.map f) (r.map f)
  | many1 r => .many1 (r.map f)
  | mark m r => .mark m (r.map f)

def atoms : Rule α → List α
  | blank => []
  | atom a => [a]
  | seq l r | choice l r => l.atoms ++ r.atoms
  | many1 r | mark _ r => r.atoms

def alternatives : Rule α → List (Rule α)
  | seq l r => l.alternatives.flatMap fun x => r.alternatives.map (.seq x ·)
  | choice l r => l.alternatives ++ r.alternatives
  | mark m r => r.alternatives.map (.mark m ·)
  | r => [r]

end Rule

end CallFlow.Grammar
