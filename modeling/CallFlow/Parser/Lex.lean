import CallFlow.Parser.Stack

/-!
The next token.

The layout scanner is asked first, then the token automaton of the state. If neither finds a token,
both try again as they do after an error, and what still fits nothing is skipped as an error.
-/
namespace CallFlow.Parser

open CallFlow.Text CallFlow.Automaton CallFlow.Lexer

namespace Lex

def runDfa (states : Array DfaState) : Nat → Nat → Cursor → Option Found →
    Option Found × Cursor
  | 0, _, c, found => (found, c)
  | fuel + 1, q, c, found =>
    let s := states.getD q {}
    let (found, c) := match s.accept with
      | some f => (some f, c.markEnd)
      | none => (found, c)
    match c.peek with
    | none => match s.onEnd with
      | some q => runDfa states fuel q c found
      | none => (found, c)
    | some ch => match s.next.getD (Letter.ofChar ch) none with
      | some (q, isBlank) => runDfa states fuel q (if isBlank then c.skip else c.advance) found
      | none => (found, c)

structure Hit where
  symbol : SymCode
  cursor : Cursor
  layout : Option LayoutState := none

inductive Outcome where
  | hit (h : Hit)
  | skipped (start stop : Place)

/--
Asks the layout scanner. An empty token that changes nothing would be found again and again, so it does not
count where nothing was read since the last error.
-/
def layoutHit (v state : Nat) (inError : Bool) (mode : Mode) (old : Option LayoutState)
    (p : Place) : ParseM (Option Hit) := do
  if mode.layout == 0 then return none
  let env ← read
  match Layout.scan ⟨mode.layout⟩ (old.getD {}) (.beginAt env.text p) with
  | none => return none
  | some r =>
    let symbol := r.token.number
    let changed := old != some r.state
    if (r.cursor.span).2.byte ≤ p.byte && !changed then
      let isExtra := env.automaton.nextState state symbol == state
      if inError || isExtra || !(← Stack.hasAdvanced v) then return none
    return some { symbol, cursor := r.cursor, layout := some r.state }

def tokenHit (mode : Mode) (p : Place) : ParseM (Option Hit × Cursor) := do
  let env ← read
  let a := env.automaton
  let c := Cursor.beginAt env.text p
  let (found, c) := runDfa a.lexer (c.remaining + 2) mode.start c none
  match found with
  | some (.token t) => return (some { symbol := a.numbering.token t, cursor := c }, c)
  | some .stop => return (some { symbol := a.numbering.stop, cursor := c }, c)
  | none => return (none, c)

/--
Looks for a token from `p` on. `skipped` is the text that fits nothing so far.
-/
def search (v state : Nat) (old : Option LayoutState) (origin : Place) :
    Nat → Bool → Place → Option (Place × Place) → ParseM Outcome
  | 0, _, p, _ => return .skipped p p
  | fuel + 1, inError, p, skipped => do
    let a := (← read).automaton
    let mode := a.modes.getD (if inError then Automaton.errorState else state) default
    let done (h : Hit) : Outcome := match skipped with
      | some (start, stop) => .skipped start stop
      | none => .hit h
    match ← layoutHit v state (inError || state == Automaton.errorState) mode old p with
    | some h => return done h
    | none =>
      let (hit, c) ← tokenHit mode p
      match hit with
      | some h => return done h
      | none =>
        if !inError && state != Automaton.errorState then
          search v state old origin fuel true origin none
        else
          let (start, stop) := skipped.getD (c.start, c.start)
          if c.here.byte == stop.byte then
            if c.isAtEnd then return .skipped start stop
            let next := c.advance
            search v state old origin fuel true next.here (some (start, next.here))
          else search v state old origin fuel true c.here (some (start, c.here))

def keyword (state : Nat) (start stop : Place) : ParseM (Option SymCode) := do
  let env ← read
  let a := env.automaton
  let word := String.ofList (env.text.extract start.index stop.index).toList
  match a.keywords[word]? with
  | some k =>
    if a.hasActions state k || a.isReserved state k then return some k else return none
  | none => return none

def next (v state : Nat) : ParseM Subtree := do
  let env ← read
  let a := env.automaton
  let before ← Stack.place v
  let old := (← Stack.head v).layout
  match ← search v state old before (2 * env.text.size + 4) false before none with
  | .skipped start stop =>
    return .mk { symbol := a.errorSymbol, before, start, stop } []
  | .hit h =>
    let (start, stop) := h.cursor.span
    let info : Info := { symbol := h.symbol, before, start, stop }
    if h.layout.isSome then
      return .mk { info with layout := h.layout, changesLayout := old != h.layout } []
    else if h.symbol == a.word then
      match ← keyword state start stop with
      | some k => return .mk { info with symbol := k, isKeyword := true } []
      | none => return .mk info []
    else return .mk { info with extra := h.symbol == a.numbering.stop } []

end Lex

end CallFlow.Parser
