import CallFlow.Text.Position

/-!
Reading a token.

A cursor stands somewhere in the text. Characters that are skipped belong to no token; the others
belong to the token being read, up to the last place that was marked as its end.
-/
namespace CallFlow.Lexer

open CallFlow.Text

structure Cursor where
  text : Array Char
  here : Place
  start : Place
  stop : Option Place := none
deriving Inhabited

namespace Cursor

/--
A cursor that begins to read at `p`. A byte order mark at the start of the text is skipped.
-/
def beginAt (text : Array Char) (p : Place) : Cursor :=
  match p.byte, text[0]? with
  | 0, some c =>
    if c.toNat == 0xFEFF then
      let q := p.past c
      { text, here := q, start := q }
    else { text, here := p, start := p }
  | _, _ => { text, here := p, start := p }

def peek (c : Cursor) : Option Char := c.text[c.here.index]?

def isAtEnd (c : Cursor) : Bool := c.peek.isNone

def sees (c : Cursor) (ch : Char) : Bool := c.peek == some ch

def seesText (c : Cursor) : Bool :=
  match c.peek with
  | some ch => ch.toNat != 0
  | none => false

def advance (c : Cursor) : Cursor :=
  match c.peek with
  | some ch => { c with here := c.here.past ch }
  | none => c

def skip (c : Cursor) : Cursor :=
  let c := c.advance
  { c with start := c.here }

def markEnd (c : Cursor) : Cursor := { c with stop := some c.here }

def span (c : Cursor) : Place × Place :=
  let stop := c.stop.getD c.here
  if stop.byte < c.start.byte then (stop, stop) else (c.start, stop)

def remaining (c : Cursor) : Nat := c.text.size - c.here.index

end Cursor

end CallFlow.Lexer
