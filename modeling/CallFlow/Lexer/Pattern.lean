import CallFlow.Lexer.Letter

/-!
Token patterns: regular expressions over sets of letters, and tokens made of them.
-/
namespace CallFlow.Lexer

inductive Pattern where
  | empty
  | letters (s : LetterSet)
  | seq (l r : Pattern)
  | alt (l r : Pattern)
  | many1 (p : Pattern)
deriving DecidableEq, Repr, Inhabited

namespace Pattern

def text (s : String) : Pattern :=
  s.toList.foldr (fun c p => .seq (.letters (.single c.toNat)) p) .empty

def anyOf (s : String) : Pattern := .letters (.ofString s)

def opt (p : Pattern) : Pattern := .alt p .empty
def many (p : Pattern) : Pattern := .opt (.many1 p)

def seqs : List Pattern → Pattern
  | [] => .empty
  | [p] => p
  | p :: ps => .seq p (seqs ps)

def oneOf : List Pattern → Pattern
  | [] => .empty
  | [p] => p
  | p :: ps => .alt p (oneOf ps)

def times (n : Nat) (p : Pattern) : Pattern := seqs (List.replicate n p)

end Pattern

structure Token where
  literal : Option String
  pattern : Pattern
  /-- The token with the higher number wins where two match the same text. -/
  prec : Int := 0
  /-- An immediate token follows the one before it without blanks. -/
  immediate : Bool := false
deriving DecidableEq, Repr, Inhabited

namespace Token

def ofString (s : String) : Token := { literal := some s, pattern := .text s }

/--
Of two tokens of equal precedence a literal text wins over a pattern, and an immediate token over another.
-/
def rank (t : Token) : Nat :=
  (if t.literal.isSome then 2 else 0) + (if t.immediate then 1 else 0)

end Token

end CallFlow.Lexer
