import CallFlow.Grammar.Rule
import CallFlow.Lexer.Pattern

/-!
What a grammar consists of besides its rules.
-/
namespace CallFlow.Grammar

open CallFlow.Lexer

inductive Atom where
  /-- Another rule, or a token that the layout scanner finds, by its name. -/
  | ref (name : String)
  | token (t : Token)
deriving DecidableEq, Repr, Inhabited

def ref (name : String) : Rule Atom := .atom (.ref name)

def token (p : Pattern) : Rule Atom := .atom (.token { literal := none, pattern := p })

def lit (s : String) : Rule Atom := .atom (.token (Token.ofString s))

instance : Coe String (Rule Atom) := ⟨lit⟩

end CallFlow.Grammar

namespace CallFlow

open CallFlow.Grammar CallFlow.Lexer

/--
A grammar. Its first rule is the start rule; a rule whose name begins with an underscore makes no node of
its own.
-/
structure Grammar where
  rules : List (String × Rule Atom)
  /-- The tokens that the layout scanner finds, in its own order; it is told about those that are ordinary
  tokens as well, so that it knows where they may stand. -/
  externals : List Atom
  extras : List String
  blanks : Pattern
  supertypes : List String
  /-- The rules that are replaced by their alternatives wherever they are used. -/
  inlined : List String
  /-- The token that keywords look like. -/
  word : String
  reserved : List String

end CallFlow
