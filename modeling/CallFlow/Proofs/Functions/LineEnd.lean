import CallFlow.Proofs.Functions.Docstring
import CallFlow.Proofs.Text.Lexeme

/-!
This module contains that a literal is read alike whatever ends its lines (`literal_of_rewritten`), and that
the text between its tokens is what is read (`textBetween_of_quotes`).
-/

namespace CallFlow.Text

/--
A text and what becomes of it with a carriage return before some of its line feeds.
-/
inductive Returned : List Char → List Char → Prop where
  | nil : Returned [] []
  | keep (c : Char) {cs ds : List Char} (h : Returned cs ds) : Returned (c :: cs) (c :: ds)
  | crlf {cs ds : List Char} (h : Returned cs ds) : Returned ('\n' :: cs) ('\r' :: '\n' :: ds)

/--
A text with a carriage return in the place of each line feed.
-/
def loneReturns (cs : List Char) : List Char := cs.map fun c => if c = '\n' then '\r' else c

inductive Rewritten (cs : List Char) : List Char → Prop where
  | crlf {ds : List Char} (h : Returned cs ds) : Rewritten cs ds
  | cr : Rewritten cs (loneReturns cs)

theorem Returned.refl (cs : List Char) : Returned cs cs := by
  induction cs with
  | nil => exact .nil
  | cons c cs ih => exact .keep c ih

/--
A text without the carriage returns that stand before line feeds.
-/
def joinReturns : List Char → List Char
  | [] => []
  | '\r' :: '\n' :: cs => '\n' :: joinReturns cs
  | c :: cs => c :: joinReturns cs

theorem normalizeLineEnds_eq_map_joinReturns (cs : List Char)
    : normalizeLineEnds cs = (joinReturns cs).map fun c => if c = '\r' then '\n' else c := by
  fun_induction joinReturns cs with
  | case1 => rfl
  | case2 cs ih => simp [normalizeLineEnds, ih]
  | case3 c cs hne ih => rw [normalizeLineEnds, ih, List.map_cons]; exact hne

theorem joinReturns_of_returned {cs ds : List Char} (hcs : '\r' ∉ cs) (h : Returned cs ds)
    : joinReturns ds = cs := by
  induction h with
  | nil => rfl
  | keep c _ ih =>
    rw [List.mem_cons, not_or] at hcs
    rw [joinReturns, ih hcs.2]
    intro _ hc _
    exact hcs.1 hc.symm
  | crlf _ ih =>
    rw [List.mem_cons, not_or] at hcs
    rw [joinReturns, ih hcs.2]

theorem joinReturns_of_newline_not_mem {cs : List Char} (h : '\n' ∉ cs) : joinReturns cs = cs := by
  fun_induction joinReturns cs with
  | case1 => rfl
  | case2 cs ih => simp at h
  | case3 c cs _ ih =>
    rw [List.mem_cons, not_or] at h
    rw [ih h.2]

theorem newline_not_mem_loneReturns (cs : List Char) : '\n' ∉ loneReturns cs := by
  unfold loneReturns
  rw [List.mem_map]
  rintro ⟨c, _, hc⟩
  split at hc
  . contradiction
  . contradiction

theorem normalizeLineEnds_of_rewritten {cs ds : List Char} (hcs : '\r' ∉ cs) (h : Rewritten cs ds)
    : normalizeLineEnds ds = cs := by
  have hne : ∀ c ∈ cs, c ≠ '\r' := by
    rintro c hc rfl
    exact hcs hc
  rw [normalizeLineEnds_eq_map_joinReturns]
  conv => rhs; rw [← List.map_id cs]
  cases h with
  | crlf h =>
    -- The first replacement takes all carriage returns, so the second one finds none.
    rw [joinReturns_of_returned hcs h]
    apply List.map_congr_left
    intro c hc
    rw [if_neg (hne c hc), id]
  | cr =>
    -- No carriage return stands before a line feed, so the first replacement changes nothing.
    rw [joinReturns_of_newline_not_mem (newline_not_mem_loneReturns cs), loneReturns, List.map_map]
    apply List.map_congr_left
    intro c hc
    rw [Function.comp_apply]
    split
    . next hnewline => rw [if_pos rfl, hnewline, id]
    . rw [if_neg (hne c hc), id]

theorem utf8ByteSize_ofList_cons (c : Char) (cs : List Char)
    : (String.ofList (c :: cs)).utf8ByteSize = c.utf8Size + (String.ofList cs).utf8ByteSize := by
  rw [← List.singleton_append, utf8ByteSize_ofList_append, utf8ByteSize_ofList_singleton]

theorem dropBytes_cons (c : Char) (n : Nat) (cs : List Char)
    : dropBytes (c.utf8Size + n) (c :: cs) = dropBytes n cs := by
  have hpos := c.utf8Size_pos
  rw [show c.utf8Size + n = c.utf8Size + n - 1 + 1 by omega, dropBytes, if_pos (by omega)]
  congr 1
  omega

theorem takeBytes_cons (c : Char) (n : Nat) (cs : List Char)
    : takeBytes (c.utf8Size + n) (c :: cs) = (takeBytes n cs).map (c :: ·) := by
  have hpos := c.utf8Size_pos
  rw [show c.utf8Size + n = c.utf8Size + n - 1 + 1 by omega, takeBytes, if_pos (by omega)]
  congr 2
  omega

theorem dropBytes_append (cs ds : List Char)
    : dropBytes (String.ofList cs).utf8ByteSize (cs ++ ds) = some ds := by
  induction cs with
  | nil =>
    rw [String.ofList_nil, String.utf8ByteSize_empty, List.nil_append]
    cases ds <;> rfl
  | cons c cs ih => rw [utf8ByteSize_ofList_cons, List.cons_append, dropBytes_cons, ih]

theorem takeBytes_append (cs ds : List Char)
    : takeBytes (String.ofList cs).utf8ByteSize (cs ++ ds) = some cs := by
  induction cs with
  | nil =>
    rw [String.ofList_nil, String.utf8ByteSize_empty, List.nil_append]
    cases ds <;> rfl
  | cons c cs ih => rw [utf8ByteSize_ofList_cons, List.cons_append, takeBytes_cons, ih, Option.map_some]

theorem slice?_append (before cs behind : List Char)
    : slice? (String.ofList before).utf8ByteSize
          ((String.ofList before).utf8ByteSize + (String.ofList cs).utf8ByteSize) (before ++ (cs ++ behind))
        =
      some cs
      := by
  unfold slice?
  rw [if_pos (Nat.le_add_right _ _), dropBytes_append, Option.bind_some, Nat.add_sub_cancel_left,
    takeBytes_append]

end CallFlow.Text

namespace CallFlow.Functions

open CallFlow.Syntax CallFlow.Text

/--
The node of a literal: it has tokens at both ends of its text, and between them the body.
-/
structure Quotes (n opening closing : Node) (body : List Char) : Prop where
  opens : lastChild? n "string_start" = some opening
  closes : lastChild? n "string_end" = some closing
  text : n.text.toList = opening.text.toList ++ (body ++ closing.text.toList)
  stop : opening.stop.byte = n.start.byte + opening.text.utf8ByteSize
  start : closing.start.byte = opening.stop.byte + (String.ofList body).utf8ByteSize

/--
The nodes of two literals that begin with the same token and have given bodies.
-/
structure SameLiteral (m n : Node) (cs ds : List Char) : Prop where
  quotes : ∃ opening closing opening' closing',
    Quotes m opening closing cs ∧ Quotes n opening' closing' ds ∧ opening'.text = opening.text
  interpolations : (∃ c ∈ n.children, c.kind = "interpolation") ↔
    ∃ c ∈ m.children, c.kind = "interpolation"

theorem textBetween_of_quotes {n opening closing : Node} {body : List Char}
    (h : Quotes n opening closing body) : textBetween n opening closing = body := by
  have hstop : opening.stop.byte - n.start.byte = (String.ofList opening.text.toList).utf8ByteSize := by
    rw [h.stop, String.ofList_toList]
    omega
  have hstart : closing.start.byte - n.start.byte
      = (String.ofList opening.text.toList).utf8ByteSize + (String.ofList body).utf8ByteSize := by
    rw [h.start, h.stop, String.ofList_toList]
    omega
  unfold textBetween
  rw [hstop, hstart, h.text, slice?_append, Option.getD_some]

theorem decodeBody_of_rewritten {cs ds : List Char} (hcs : '\r' ∉ cs) (h : Rewritten cs ds) (raw : Bool)
    : decodeBody raw ds = if raw then cs else unescape cs := by
  unfold decodeBody
  rw [normalizeLineEnds_of_rewritten hcs h]

theorem literal?_of_quotes {n opening closing : Node} {body : List Char}
    (h : Quotes n opening closing body)
    : literal? n
        =
      if ∃ c ∈ n.children, c.kind = "interpolation" then none
      else
        let letters := literalPrefix opening.text.toList
        if letters.contains 'b' || letters.contains 'f' then none
        else some (decodeBody (letters.contains 'r') body)
      := by
  unfold literal?
  rw [h.opens, h.closes]
  dsimp only
  rw [textBetween_of_quotes h]
  simp

theorem literal?_eq_of_sameLiteral {m n : Node} {cs ds : List Char} (h : SameLiteral m n cs ds)
    (hbody : ∀ raw, decodeBody raw ds = decodeBody raw cs) : literal? n = literal? m := by
  rcases h.quotes with ⟨opening, closing, opening', closing', hm, hn, htext⟩
  rw [literal?_of_quotes hm, literal?_of_quotes hn, htext]
  simp only [h.interpolations, hbody]

/--
A literal whose lines end in line feeds is read alike with carriage returns before any of these, and with
carriage returns in the place of all of them, whether it is raw or has escape sequences, of which a backslash at
the end of a line is one.
-/
theorem literal_of_rewritten {cs ds : List Char} (hcs : '\r' ∉ cs) (h : Rewritten cs ds)
    : decodeBody true ds = cs ∧
      decodeBody false ds = unescape cs ∧
      (∀ raw, decodeBody raw ds = decodeBody raw cs) ∧
      ∀ m n, SameLiteral m n cs ds → literal? n = literal? m := by
  have hbody : ∀ raw, decodeBody raw ds = decodeBody raw cs := by
    intro raw
    rw [decodeBody_of_rewritten hcs h, decodeBody_of_rewritten hcs (.crlf (.refl cs))]
  refine ⟨decodeBody_of_rewritten hcs h true, decodeBody_of_rewritten hcs h false, hbody, ?_⟩
  intro m n hmn
  exact literal?_eq_of_sameLiteral hmn hbody

/--
A line that goes on behind a backslash and its end, which is written with a carriage return, and another line
end, which is not.
-/
theorem literal_of_rewritten_joined :
    let cs := "one \\\nline\nand more".toList
    let ds := "one \\\r\nline\nand more".toList
    let m := literalNode 8 "u" "one \\\nline\nand more"
    let n := literalNode 8 "u" "one \\\r\nline\nand more"
    '\r' ∉ cs ∧ Rewritten cs ds ∧ SameLiteral m n cs ds ∧
      decodeBody true ds = cs ∧
      decodeBody false ds = "one line\nand more".toList ∧
      literal? n = literal? m ∧
      literal? m = some "one line\nand more".toList := by
  intro cs ds m n
  have hcs : '\r' ∉ cs := by decide
  have h : Rewritten cs ds :=
    .crlf (.keep _ (.keep _ (.keep _ (.keep _ (.keep _ (.crlf (.refl _)))))))
  have hmn : SameLiteral m n cs ds :=
    ⟨⟨_, _, _, _, ⟨rfl, rfl, by decide, by decide, by decide⟩, ⟨rfl, rfl, by decide, by decide, by decide⟩, rfl⟩,
      by decide⟩
  rcases literal_of_rewritten hcs h with ⟨hraw, hread, _, hliteral⟩
  refine ⟨hcs, h, hmn, hraw, ?_, hliteral m n hmn, by decide +kernel⟩
  rw [hread]
  decide +kernel

end CallFlow.Functions
