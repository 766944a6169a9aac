import CallFlow.Lexer.Cursor

/-!
Layout tokens: line ends, indentation, and the parts of strings.

The scanner keeps the indentations of the open blocks and the delimiters of the open strings. Which
tokens it looks for depends on what the parser's state allows; during error recovery it allows
everything, which the scanner notices.
-/
namespace CallFlow.Lexer

/--
The tokens that the scanner is asked about. It gives the first seven only.
-/
inductive LayoutToken where
  | newline
  | indent
  | dedent
  | stringStart
  | stringContent
  | escapeInterpolation
  | stringEnd
  | comment
  | closeBracket
  | closeParen
  | closeBrace
  | except
deriving DecidableEq, Repr, Inhabited

def LayoutToken.number : LayoutToken → Nat
  | newline => 0
  | indent => 1
  | dedent => 2
  | stringStart => 3
  | stringContent => 4
  | escapeInterpolation => 5
  | stringEnd => 6
  | comment => 7
  | closeBracket => 8
  | closeParen => 9
  | closeBrace => 10
  | except => 11

structure Delimiter where
  quote : Char
  raw : Bool := false
  format : Bool := false
  bytes : Bool := false
  triple : Bool := false
deriving DecidableEq, Repr, Inhabited

structure LayoutState where
  indents : List Nat := [0]
  delimiters : List Delimiter := []
  /-- Whether the string opened or closed last is an open string with interpolations. -/
  inFormat : Bool := false
deriving DecidableEq, Repr, Inhabited

namespace Layout

structure Result where
  token : LayoutToken
  cursor : Cursor
  state : LayoutState
deriving Inhabited

structure Allowed where
  mask : Nat

def Allowed.has (a : Allowed) (t : LayoutToken) : Bool := a.mask.testBit t.number

/--
Whether the parser recovers from an error: no state allows both of these.
-/
def Allowed.inRecovery (a : Allowed) : Bool := a.has .stringContent && a.has .indent

def Allowed.inBrackets (a : Allowed) : Bool :=
  a.has .closeBrace || a.has .closeParen || a.has .closeBracket

def isBrace (c : Char) : Bool := c == '\x7b' || c == '\x7d'

def doubledBrace (st : LayoutState) (c : Cursor) (brace : Char) : Option Result :=
  let c := c.advance
  if c.sees brace then some ⟨.escapeInterpolation, c.advance.markEnd, st⟩ else none

def close (st : LayoutState) (c : Cursor) : Result :=
  ⟨.stringEnd, c, { st with delimiters := st.delimiters.tail, inFormat := false }⟩

inductive Content where
  | done (r : Option Result)
  | unfinished (c : Cursor)
deriving Inhabited

def endPart (st : LayoutState) (c : Cursor) (hasContent : Bool) : Content :=
  .done (if hasContent then some ⟨.stringContent, c, st⟩ else none)

/--
What stands behind a backslash in a raw string is read with it: a quote of the string's own kind or another
backslash, and then a line end.
-/
def pastRawEscape (d : Delimiter) (c : Cursor) : Cursor :=
  let c := c.advance
  let c := if c.sees d.quote || c.sees '\\' then c.advance else c
  if c.sees '\r' then
    let c := c.advance
    if c.sees '\n' then c.advance else c
  else if c.sees '\n' then c.advance
  else c

def atTripleQuote (d : Delimiter) (st : LayoutState) (c : Cursor) (hasContent : Bool) : Result :=
  let c := c.markEnd
  let c := c.advance
  if c.sees d.quote then
    let c := c.advance
    if c.sees d.quote then
      if hasContent then ⟨.stringContent, c, st⟩ else close st c.advance.markEnd
    else ⟨.stringContent, c.markEnd, st⟩
  else ⟨.stringContent, c.markEnd, st⟩

def content (d : Delimiter) (st : LayoutState) : Nat → Bool → Cursor → Content
  | 0, _, c => .unfinished c
  | fuel + 1, hasContent, c =>
    if !c.seesText then .unfinished c
    else
      let ch := (c.peek).getD ' '
      if d.format && isBrace ch then endPart st c.markEnd hasContent
      else if ch == '\\' then
        if d.raw then content d st fuel hasContent (pastRawEscape d c)
        else if d.bytes then
          let marked := c.markEnd
          let c := marked.advance
          if c.sees 'N' || c.sees 'u' || c.sees 'U' then
            content d st fuel true c.advance.advance
          else endPart st c hasContent
        else endPart st c.markEnd hasContent
      else if ch == d.quote then
        if d.triple then .done (some (atTripleQuote d st c hasContent))
        else if hasContent then .done (some ⟨.stringContent, c.markEnd, st⟩)
        else .done (some (close st c.advance.markEnd))
      else if ch == '\n' && hasContent && !d.triple then .done none
      else content d st fuel true c.advance

structure Blanks where
  cursor : Cursor
  foundLineEnd : Bool := false
  indent : Nat := 0
  /-- The indentation of the first comment that has a line of its own. -/
  firstComment : Option Nat := none
deriving Inhabited

/--
Skips the rest of a line, the line feed included. A NUL ends the line too.
-/
def skipLine : Nat → Cursor → Cursor
  | 0, c => c
  | fuel + 1, c => if c.seesText && !c.sees '\n' then skipLine fuel c.skip else c.skip

/--
Skips blanks, line ends, and comments on lines of their own. None where no layout token can stand: before a
comment on a line with code, or before a stray backslash.
-/
def blanks (allowed : Allowed) : Nat → Blanks → Option Blanks
  | 0, b => some b
  | fuel + 1, b =>
    let c := b.cursor
    match c.peek with
    | none => some { b with foundLineEnd := true, indent := 0 }
    | some '\n' => blanks allowed fuel { b with cursor := c.skip, foundLineEnd := true, indent := 0 }
    | some ' ' => blanks allowed fuel { b with cursor := c.skip, indent := (b.indent + 1) % 65536 }
    | some '\r' => blanks allowed fuel { b with cursor := c.skip, indent := 0 }
    | some '\x0c' => blanks allowed fuel { b with cursor := c.skip, indent := 0 }
    | some '\t' => blanks allowed fuel { b with cursor := c.skip, indent := (b.indent + 8) % 65536 }
    | some '#' =>
      if allowed.has .indent || allowed.has .dedent || allowed.has .newline ||
          allowed.has .except then
        if b.foundLineEnd then
          blanks allowed fuel { b with
            cursor := skipLine c.remaining c
            indent := 0
            firstComment := b.firstComment <|> some b.indent }
        else none
      else some b
    | some '\\' =>
      let c := c.skip
      let c := if c.sees '\r' then c.skip else c
      if c.sees '\n' || c.isAtEnd then blanks allowed fuel { b with cursor := c.skip } else none
    | some _ => some b

def seesQuote (c : Cursor) : Bool := c.sees '"' || c.sees '\x27' || c.sees '\x60'

def block (allowed : Allowed) (st : LayoutState) (b : Blanks) : Option Result :=
  match st.indents with
  | [] => none
  | current :: outer =>
    if allowed.has .indent && current < b.indent then
      some ⟨.indent, b.cursor, { st with indents := b.indent :: st.indents }⟩
    else
      let mayClose := allowed.has .dedent || (!allowed.has .newline &&
        !(allowed.has .stringStart && seesQuote b.cursor) && !allowed.inBrackets)
      let commentIsOutside := match b.firstComment with
        | some k => k < current
        | none => true
      if mayClose && b.indent < current && !st.inFormat && commentIsOutside then
        some ⟨.dedent, b.cursor, { st with indents := outer }⟩
      else none

def openerLetters : Nat → Delimiter → Bool → Cursor → Delimiter × Bool × Cursor
  | 0, d, any, c => (d, any, c)
  | fuel + 1, d, any, c =>
    match c.peek with
    | some ch =>
      if ch == 'f' || ch == 'F' || ch == 't' || ch == 'T' then
        openerLetters fuel { d with format := true } true c.advance
      else if ch == 'r' || ch == 'R' then openerLetters fuel { d with raw := true } true c.advance
      else if ch == 'b' || ch == 'B' then openerLetters fuel { d with bytes := true } true c.advance
      else if ch == 'u' || ch == 'U' then openerLetters fuel d true c.advance
      else (d, any, c)
    | none => (d, any, c)

def openerQuotes (d : Delimiter) (c : Cursor) : Option (Delimiter × Cursor) :=
  match c.peek with
  | some q =>
    if q == '\x60' then some ({ d with quote := q }, c.advance.markEnd)
    else if q == '"' || q == '\x27' then
      let one := c.advance.markEnd
      if one.sees q && one.advance.sees q then
        some ({ d with quote := q, triple := true }, one.advance.advance.markEnd)
      else some ({ d with quote := q }, one)
    else none
  | none => none

def opener (st : LayoutState) (c : Cursor) : Option Result :=
  let (d, _, c) := openerLetters c.remaining { quote := ' ' } false c
  match openerQuotes d c with
  | some (d, c) => some ⟨.stringStart, c,
      { st with delimiters := d :: st.delimiters, inFormat := d.format }⟩
  | none => none

def outside (allowed : Allowed) (st : LayoutState) (c : Cursor) : Option Result :=
  let c := c.markEnd
  match blanks allowed (c.remaining + 1) { cursor := c } with
  | none => none
  | some b =>
    let found :=
      if b.foundLineEnd then
        match block allowed st b with
        | some r => some r
        | none =>
          if allowed.has .newline && !allowed.inRecovery then some ⟨.newline, b.cursor, st⟩
          else none
      else none
    match found with
    | some r => some r
    | none =>
      if b.firstComment.isNone && allowed.has .stringStart then opener st b.cursor else none

def scan (allowed : Allowed) (st : LayoutState) (c : Cursor) : Option Result :=
  match st.delimiters with
  | [] => outside allowed st c
  | d :: _ =>
    let calm := !allowed.inRecovery
    let brace := (c.peek.filter isBrace)
    match brace with
    | some ch =>
      if allowed.has .escapeInterpolation && calm && d.format then doubledBrace st c ch
      else within d calm
    | none => within d calm
where
  within (d : Delimiter) (calm : Bool) : Option Result :=
    if allowed.has .stringContent && calm then
      match content d st (c.remaining + 1) false c with
      | .done r => r
      | .unfinished c => outside allowed st c
    else outside allowed st c

end Layout

end CallFlow.Lexer
