import CallFlow.Lexer.Layout
import CallFlow.Proofs.Text.Place

/-!
This module contains where the tokens stand that are read from a place on: a cursor keeps to places of its
text that are not before that one (`Reads`), also when the layout scanner moves it (`found_scan`).
-/

namespace CallFlow.Lexer

open CallFlow.Text

/--
A cursor over `text` that has begun to read at `p`.
-/
structure Reads (text : Array Char) (p : Place) (c : Cursor) : Prop where
  text_eq : c.text = text
  here : IsPlace text c.here
  start : IsPlace text c.start
  from_le_start : p.byte ≤ c.start.byte
  start_le_here : c.start.byte ≤ c.here.byte
  stop : ∀ q, c.stop = some q → IsPlace text q ∧ p.byte ≤ q.byte

theorem Cursor.here_le_advance (c : Cursor) : c.here.byte ≤ c.advance.here.byte := by
  unfold Cursor.advance
  split
  . exact Nat.le_add_right _ _
  . exact Nat.le_refl _

namespace Reads

variable {text : Array Char} {p : Place} {c : Cursor}

theorem from_le_here (h : Reads text p c) : p.byte ≤ c.here.byte :=
  Nat.le_trans h.from_le_start h.start_le_here

theorem beginAt (hp : IsPlace text p) : Reads text p (.beginAt text p) := by
  have hhere (q : Place) (hq : IsPlace text q) (hle : p.byte ≤ q.byte)
      : Reads text p { text, here := q, start := q } :=
    ⟨rfl, hq, hq, hle, Nat.le_refl _, by intros; contradiction⟩
  unfold Cursor.beginAt
  split
  . next ch hbyte hch =>
    split
    . have horigin : p = {} := hp.eq_of_byte_eq (IsPlace.origin text) hbyte
      rw [horigin] at hp hhere ⊢
      exact hhere (Place.past {} ch) (hp.past hch) (Nat.zero_le _)
    . exact hhere p hp (Nat.le_refl _)
  . exact hhere p hp (Nat.le_refl _)

theorem advance (h : Reads text p c) : Reads text p c.advance := by
  have hle := Nat.le_trans h.start_le_here c.here_le_advance
  unfold Cursor.advance at hle ⊢
  split
  . next ch hch =>
    rw [hch] at hle
    unfold Cursor.peek at hch
    rw [h.text_eq] at hch
    exact ⟨h.text_eq, h.here.past hch, h.start, h.from_le_start, hle, h.stop⟩
  . exact h

theorem skip (h : Reads text p c) : Reads text p c.skip := by
  have h := h.advance
  exact ⟨h.text_eq, h.here, h.here, h.from_le_here, Nat.le_refl _, h.stop⟩

theorem markEnd (h : Reads text p c) : Reads text p c.markEnd := by
  refine ⟨h.text_eq, h.here, h.start, h.from_le_start, h.start_le_here, ?_⟩
  intro q hq
  injection hq with hq
  rw [← hq]
  exact ⟨h.here, h.from_le_here⟩

theorem ite {b : Bool} {c' : Cursor} (h : Reads text p c) (h' : Reads text p c')
    : Reads text p (if b then c else c') := by
  split
  . exact h
  . exact h'

/--
The token that was read stands behind the place where its reading began.
-/
theorem span (h : Reads text p c)
    : IsPlace text c.span.1 ∧ IsPlace text c.span.2 ∧ p.byte ≤ c.span.1.byte ∧
        c.span.1.byte ≤ c.span.2.byte := by
  have hstop : IsPlace text (c.stop.getD c.here) ∧ p.byte ≤ (c.stop.getD c.here).byte := by
    cases hq : c.stop with
    | none => exact ⟨h.here, h.from_le_here⟩
    | some q => exact h.stop q hq
  unfold Cursor.span
  dsimp only
  split
  . exact ⟨hstop.1, hstop.1, hstop.2, Nat.le_refl _⟩
  . next hle => exact ⟨h.start, hstop.1, h.from_le_start, Nat.le_of_not_lt hle⟩

end Reads

/--
What is found, if anything, is read from `p` on.
-/
def FoundFrom {α : Type} (text : Array Char) (p : Place) (cursor : α → Cursor) : Option α → Prop
  | some x => Reads text p (cursor x)
  | none => True

theorem FoundFrom.reads {α : Type} {text : Array Char} {p : Place} {cursor : α → Cursor} {x : α}
    {o : Option α} (h : FoundFrom text p cursor o) (ho : o = some x) : Reads text p (cursor x) := by
  rw [ho] at h
  exact h

namespace Layout

variable {text : Array Char} {p : Place} {c : Cursor} {st : LayoutState} {d : Delimiter} {a : Allowed}

def Content.Reads (text : Array Char) (p : Place) : Content → Prop
  | .done r => FoundFrom text p Result.cursor r
  | .unfinished c => Lexer.Reads text p c

theorem found_doubledBrace {brace : Char} (h : Reads text p c)
    : FoundFrom text p Result.cursor (doubledBrace st c brace) := by
  unfold doubledBrace
  dsimp only
  split
  . exact h.advance.advance.markEnd
  . trivial

theorem reads_endPart {hasContent : Bool} (h : Reads text p c)
    : (endPart st c hasContent).Reads text p := by
  unfold endPart
  split
  . exact h
  . trivial

theorem reads_pastRawEscape (h : Reads text p c) : Reads text p (pastRawEscape d c) := by
  unfold pastRawEscape
  have h := h.advance
  have h := h.advance.ite h (b := c.advance.sees d.quote || c.advance.sees '\\')
  apply Reads.ite
  . exact h.advance.advance.ite h.advance
  . exact h.advance.ite h

theorem reads_atTripleQuote {hasContent : Bool} (h : Reads text p c)
    : Reads text p (atTripleQuote d st c hasContent).cursor := by
  have h := h.markEnd.advance
  unfold atTripleQuote close
  dsimp only
  split
  . split
    . split
      . exact h.advance
      . exact h.advance.advance.markEnd
    . exact h.advance.markEnd
  . exact h.markEnd

theorem reads_content (fuel : Nat) (hasContent : Bool) (h : Reads text p c)
    : (content d st fuel hasContent c).Reads text p := by
  induction fuel generalizing hasContent c with
  | zero => exact h
  | succ fuel ih =>
    unfold content
    dsimp only
    split
    . exact h
    . split
      . exact reads_endPart h.markEnd
      . split
        . split
          . exact ih hasContent (reads_pastRawEscape h)
          . split
            . split
              . exact ih true h.markEnd.advance.advance.advance
              . exact reads_endPart h.markEnd.advance
            . exact reads_endPart h.markEnd
        . split
          . split
            . exact reads_atTripleQuote h
            . split
              . exact h.markEnd
              . exact h.advance.markEnd
          . split
            . trivial
            . exact ih true h.advance

theorem reads_skipLine (fuel : Nat) (h : Reads text p c) : Reads text p (skipLine fuel c) := by
  induction fuel generalizing c with
  | zero => exact h
  | succ fuel ih =>
    unfold skipLine
    exact (ih h.skip).ite h.skip

theorem found_blanks (fuel : Nat) {b : Blanks} (h : Reads text p b.cursor)
    : FoundFrom text p Blanks.cursor (blanks a fuel b) := by
  induction fuel generalizing b with
  | zero => exact h
  | succ fuel ih =>
    unfold blanks
    dsimp only
    split
    case h_7 =>
      split
      . split
        . exact ih (reads_skipLine _ h)
        . trivial
      . exact h
    case h_8 =>
      split
      . split
        . exact ih h.skip.skip.skip
        . trivial
      . split
        . exact ih h.skip.skip
        . trivial
    all_goals
      first
      | exact h
      | exact ih h.skip

theorem found_block {b : Blanks} (h : Reads text p b.cursor)
    : FoundFrom text p Result.cursor (block a st b) := by
  unfold block
  split
  . trivial
  . split
    . exact h
    . dsimp only
      split
      . split
        . exact h
        . trivial
      . split
        . exact h
        . trivial

theorem reads_openerLetters (fuel : Nat) (any : Bool) (h : Reads text p c)
    : Reads text p (openerLetters fuel d any c).2.2 := by
  induction fuel generalizing d any c with
  | zero => exact h
  | succ fuel ih =>
    unfold openerLetters
    split
    . split
      . exact ih true h.advance
      . split
        . exact ih true h.advance
        . split
          . exact ih true h.advance
          . split
            . exact ih true h.advance
            . exact h
    . exact h

theorem found_openerQuotes (h : Reads text p c) : FoundFrom text p Prod.snd (openerQuotes d c) := by
  have hone := h.advance.markEnd
  unfold openerQuotes
  split
  . split
    . exact hone
    . split
      . dsimp only
        split
        . exact hone.advance.advance.markEnd
        . exact hone
      . trivial
  . trivial

theorem found_opener (h : Reads text p c) : FoundFrom text p Result.cursor (opener st c) := by
  have h := reads_openerLetters (d := { quote := ' ' }) c.remaining false h
  unfold opener
  dsimp only
  split
  . next hquotes => exact (found_openerQuotes h).reads hquotes
  . trivial

theorem found_outside (h : Reads text p c) : FoundFrom text p Result.cursor (outside a st c) := by
  unfold outside
  dsimp only
  split
  . trivial
  . next b hblanks =>
    have h : Reads text p b.cursor := (found_blanks _ h.markEnd).reads hblanks
    split
    . next hfound =>
      split at hfound
      . split at hfound
        . next hblock =>
          injection hfound with hfound
          rw [← hfound]
          exact (found_block h).reads hblock
        . split at hfound
          . injection hfound with hfound
            rw [← hfound]
            exact h
          . contradiction
      . contradiction
    . split
      . exact found_opener h
      . trivial

/--
A layout token that is looked for from a place on stands behind it.
-/
theorem found_scan (h : Reads text p c) : FoundFrom text p Result.cursor (scan a st c) := by
  have hwithin (d : Delimiter) (calm : Bool)
      : FoundFrom text p Result.cursor (scan.within a st c d calm) := by
    have hcontent : (content d st (c.remaining + 1) false c).Reads text p := reads_content _ _ h
    unfold scan.within
    split
    . split
      . next hdone =>
        rw [hdone] at hcontent
        exact hcontent
      . next hunfinished =>
        rw [hunfinished] at hcontent
        exact found_outside hcontent
    . exact found_outside h
  unfold scan
  split
  . exact found_outside h
  . dsimp only
    split
    . split
      . exact found_doubledBrace h
      . exact hwithin _ _
    . exact hwithin _ _

end Layout

end CallFlow.Lexer
