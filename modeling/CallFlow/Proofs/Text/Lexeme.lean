import CallFlow.Proofs.Text.Escape

/-!
This module contains how a literal is cut into lexemes. Reading replaces each escape sequence by its
character and keeps every other lexeme as it is, whatever follows it (`unescape_by_lexemes`).
-/

namespace CallFlow.Text

/--
The parts of a literal that are read at once.
-/
inductive Lexeme where
  | char (c : Char)
  | letter (letter : Char)
  | octal (digits : List Char)
  | hex (letter : Char) (digits : List Char)
  /-- A backslash at the end of the literal. -/
  | backslash
deriving DecidableEq, Repr

/--
All the digits that can be taken from a text: there are as many as there may be, or none comes next.
-/
structure LongestRun (isDigit : Char → Bool) (width : Nat) (digits rest : List Char) : Prop where
  isDigit_of_mem : ∀ d ∈ digits, isDigit d = true
  length_le : digits.length ≤ width
  stops : digits.length < width → ∀ c ∈ rest.head?, isDigit c = false

namespace Lexeme

def text : Lexeme → List Char
  | char c => [c]
  | letter l => ['\\', l]
  | octal digits => '\\' :: digits
  | hex l digits => '\\' :: l :: digits
  | backslash => ['\\']

/--
The lexemes that a literal may begin with if it goes on with `rest` behind them.
-/
inductive Fits (rest : List Char) : Lexeme → Prop where
  | char {c : Char} (h : c ≠ '\\') : Fits rest (char c)
  | letter {l : Char} (hoctal : isOctalDigit l = false) (hhex : ∀ width, (l, width) ∉ hexWidths)
      : Fits rest (letter l)
  | octal {digits : List Char} (hne : digits ≠ []) (hrun : LongestRun isOctalDigit 3 digits rest)
      : Fits rest (octal digits)
  | hex {l : Char} {width : Nat} {digits : List Char} (hl : (l, width) ∈ hexWidths)
      (hrun : LongestRun isHexDigit width digits rest) : Fits rest (hex l digits)
  | backslash (h : rest = []) : Fits rest backslash

/--
The character that a well-formed escape sequence stands for.
-/
inductive Denotes : Lexeme → Char → Prop where
  | letter {l c : Char} (h : (l, c) ∈ letterEscapes) : Denotes (letter l) c
  | octal {digits : List Char} {c : Char} (h : Numeral 8 c.toNat digits) : Denotes (octal digits) c
  | hex {l : Char} {digits : List Char} {c : Char} (h : Numeral 16 c.toNat digits)
      (hlen : (l, digits.length) ∈ hexWidths) : Denotes (hex l digits) c

/--
What a lexeme is replaced by.
-/
inductive Becomes : Lexeme → List Char → Prop where
  | escape {t : Lexeme} {c : Char} (h : t.Denotes c) : Becomes t [c]
  | join : Becomes (letter '\n') []
  | verbatim {t : Lexeme} (hnone : ∀ c, ¬t.Denotes c) (hjoin : t ≠ letter '\n') : Becomes t t.text

end Lexeme

/--
The lexemes of a literal, from the left.
-/
inductive Cut : List Char → List Lexeme → Prop where
  | nil : Cut [] []
  | cons {t : Lexeme} {rest : List Char} {ts : List Lexeme} (ht : t.Fits rest) (h : Cut rest ts)
      : Cut (t.text ++ rest) (t :: ts)

namespace LongestRun

variable {isDigit : Char → Bool} {width : Nat} {digits rest : List Char}

theorem leadingDigits_eq (h : LongestRun isDigit width digits rest)
    : leadingDigits isDigit width (digits ++ rest) = digits :=
  leadingDigits_append h.isDigit_of_mem h.length_le h.stops

theorem exists_digitChar_of_octal (h : LongestRun isOctalDigit width digits rest)
    : ∀ d ∈ digits, ∃ value < 8, d.toLower = value.digitChar := by
  intro d hd
  apply exists_digitChar_of_isOctalDigit
  apply h.isDigit_of_mem d hd

theorem exists_digitChar_of_hex (h : LongestRun isHexDigit width digits rest)
    : ∀ d ∈ digits, ∃ value < 16, d.toLower = value.digitChar := by
  intro d hd
  apply exists_digitChar_of_isHexDigit
  apply h.isDigit_of_mem d hd

theorem numberOf_lt_of_octal (h : LongestRun isOctalDigit width digits rest) {len : Nat}
    (hlen : digits.length ≤ len) : numberOf 8 digits < 8 ^ len := by
  have hlt : numberOf 8 digits < 8 ^ digits.length := by
    apply numberOf_lt (by decide)
    apply h.exists_digitChar_of_octal
  apply Nat.lt_of_lt_of_le hlt
  apply Nat.pow_le_pow_right (by decide) hlen

theorem cons {c : Char} (hc : isDigit c = true) (h : LongestRun isDigit width digits rest)
    : LongestRun isDigit (width + 1) (c :: digits) rest := by
  constructor
  . rw [List.forall_mem_cons]
    exact ⟨hc, h.isDigit_of_mem⟩
  . simp [h.length_le]
  . intro hlt
    apply h.stops
    simpa using hlt

end LongestRun

theorem exists_longestRun (isDigit : Char → Bool) (width : Nat) (cs : List Char)
    : ∃ digits rest, digits ++ rest = cs ∧ LongestRun isDigit width digits rest := by
  induction width generalizing cs with
  | zero => exact ⟨[], cs, rfl, by simp, by simp, by simp⟩
  | succ width ih =>
    cases cs with
    | nil => exact ⟨[], [], rfl, by simp, by simp, by simp⟩
    | cons c cs =>
      by_cases hc : isDigit c = true
      . rcases ih cs with ⟨digits, rest, rfl, hrun⟩
        exact ⟨c :: digits, rest, rfl, hrun.cons hc⟩
      . exact ⟨[], c :: cs, rfl, by simp, by simp, by simpa using hc⟩

theorem hexWidth?_eq_none {l : Char} (h : ∀ width, (l, width) ∉ hexWidths) : hexWidth? l = none := by
  rw [Option.eq_none_iff_forall_ne_some]
  intro width hwidth
  exact h width (hexWidth?_eq_some_iff.mp hwidth)

theorem escapeOf?_eq_none {l : Char} (hjoin : l ≠ '\n') (h : ∀ c, (l, c) ∉ letterEscapes)
    : escapeOf? l = none := by
  unfold escapeOf?
  split <;> simp_all [letterEscapes]

namespace Lexeme

/--
The lexeme at the start of a literal, from its first character and the text behind it.
-/
def ofCons (c : Char) (cs : List Char) : Lexeme :=
  if c = '\\' then
    match cs with
    | [] => backslash
    | l :: ls =>
      if isOctalDigit l then octal (leadingDigits isOctalDigit 3 cs)
      else
        match hexWidth? l with
        | some width => hex l (leadingDigits isHexDigit width ls)
        | none => letter l
  else char c

theorem eq_ofCons {t : Lexeme} {rest : List Char} {c : Char} {cs : List Char} (h : t.Fits rest)
    (htext : t.text ++ rest = c :: cs) : t = ofCons c cs := by
  unfold ofCons
  cases h with
  | char hc =>
    injection htext with hc' hcs
    rw [← hc', if_neg hc]
  | @letter l hoctal hhex =>
    injection htext with hc hcs
    subst hc hcs
    simp [hoctal, hexWidth?_eq_none hhex]
  | @octal digits hne hrun =>
    injection htext with hc hcs
    subst hc hcs
    cases digits with
    | nil => contradiction
    | cons d ds =>
      have hd := hrun.isDigit_of_mem d List.mem_cons_self
      have hdigits := hrun.leadingDigits_eq
      rw [List.cons_append] at hdigits
      simp [hd, hdigits]
  | @hex l width digits hl hrun =>
    injection htext with hc hcs
    subst hc hcs
    simp [isOctalDigit_of_mem_hexWidths hl, hexWidth?_eq_some_iff.mpr hl, hrun.leadingDigits_eq]
  | backslash hrest =>
    injection htext with hc hcs
    rw [hrest] at hcs
    subst hc hcs
    simp

theorem Fits.unique {t u : Lexeme} {rest rest' : List Char} (ht : t.Fits rest) (hu : u.Fits rest')
    (h : t.text ++ rest = u.text ++ rest') : t = u := by
  cases hraw : t.text ++ rest with
  | nil => cases t <;> contradiction
  | cons c cs =>
    rw [eq_ofCons ht hraw]
    rw [h] at hraw
    rw [eq_ofCons hu hraw]

theorem exists_fits {raw : List Char} (h : raw ≠ []) : ∃ t rest, t.text ++ rest = raw ∧ Fits rest t := by
  cases raw with
  | nil => contradiction
  | cons c cs =>
    by_cases hc : c = '\\'
    . subst hc
      cases cs with
      | nil => exact ⟨backslash, [], rfl, .backslash rfl⟩
      | cons l ls =>
        by_cases hoctal : isOctalDigit l = true
        . rcases exists_longestRun isOctalDigit 2 ls with ⟨digits, rest, rfl, hrun⟩
          exact ⟨octal (l :: digits), rest, rfl, .octal (by simp) (hrun.cons hoctal)⟩
        . by_cases hhex : ∃ width, (l, width) ∈ hexWidths
          . rcases hhex with ⟨width, hl⟩
            rcases exists_longestRun isHexDigit width ls with ⟨digits, rest, rfl, hrun⟩
            exact ⟨hex l digits, rest, rfl, .hex hl hrun⟩
          . rw [not_exists] at hhex
            exact ⟨letter l, ls, rfl, .letter (by simpa using hoctal) hhex⟩
    . exact ⟨char c, cs, rfl, .char hc⟩

theorem exists_becomes (t : Lexeme) : ∃ out, t.Becomes out := by
  by_cases hsome : ∃ c, t.Denotes c
  . rcases hsome with ⟨c, hc⟩
    exact ⟨[c], .escape hc⟩
  . by_cases hjoin : t = letter '\n'
    . subst hjoin
      exact ⟨[], .join⟩
    . rw [not_exists] at hsome
      exact ⟨t.text, .verbatim hsome hjoin⟩

theorem exists_denotes_octal {digits rest : List Char} (h : Fits rest (octal digits))
    : ∃ c, Denotes (octal digits) c ∧ charOf? (numberOf 8 digits) = some c := by
  cases h with
  | octal hne hrun =>
    have hlt := hrun.numberOf_lt_of_octal hrun.length_le
    cases hchar : charOf? (numberOf 8 digits) with
    | none =>
      rw [charOf?_eq_none_iff] at hchar
      omega
    | some c =>
      have hnum := numeral_numberOf (by decide) (by decide) hne hrun.exists_digitChar_of_octal
      rw [← toNat_of_charOf? hchar] at hnum
      exact ⟨c, .octal hnum, rfl⟩

theorem width_eq {l : Char} {width width' : Nat} (h : (l, width) ∈ hexWidths)
    (h' : (l, width') ∈ hexWidths) : width = width' := by
  rw [← hexWidth?_eq_some_iff] at h h'
  rw [h] at h'
  injection h'

theorem two_le_of_mem_hexWidths {l : Char} {width : Nat} (h : (l, width) ∈ hexWidths) : 2 ≤ width := by
  have hall : ∀ e ∈ hexWidths, 2 ≤ e.2 := by decide
  exact hall _ h

theorem not_denotes_hex_iff {l : Char} {width : Nat} {digits rest : List Char}
    (hl : (l, width) ∈ hexWidths) (hrun : LongestRun isHexDigit width digits rest)
    : (∀ c, ¬Denotes (hex l digits) c)
        ↔
      digits.length < width ∨
        ∃ n, Numeral 16 n digits ∧ (0xD800 ≤ n ∧ n ≤ 0xDFFF ∨ 0x10FFFF < n)
      := by
  constructor
  . intro hnone
    by_cases hlen : digits.length < width
    . exact .inl hlen
    . have hwidth : digits.length = width := Nat.le_antisymm hrun.length_le (by omega)
      have hnum : Numeral 16 (numberOf 16 digits) digits := by
        apply numeral_numberOf (by decide) (by decide)
        . apply List.ne_nil_of_length_pos
          rw [hwidth]
          exact Nat.lt_of_lt_of_le (by decide) (two_le_of_mem_hexWidths hl)
        . exact hrun.exists_digitChar_of_hex
      refine .inr ⟨_, hnum, ?_⟩
      rw [← charOf?_eq_none_iff, Option.eq_none_iff_forall_ne_some]
      intro c hc
      rw [← toNat_of_charOf? hc] at hnum
      rw [← hwidth] at hl
      exact hnone c (.hex hnum hl)
  . intro h c hc
    cases hc with
    | hex hnum hlen =>
      cases h with
      | inl hlt =>
        have := width_eq hl hlen
        omega
      | inr hlarge =>
        rcases hlarge with ⟨n, hn, hrange⟩
        rw [← hn.numberOf_eq (by decide) (by decide), hnum.numberOf_eq (by decide) (by decide),
          ← charOf?_eq_none_iff, charOf?_toNat] at hrange
        contradiction

theorem two_le_length_text {t : Lexeme} {c : Char} (h : t.Denotes c) : 2 ≤ t.text.length := by
  cases h with
  | letter => simp [text]
  | octal hnum =>
    have := List.length_pos_iff.mpr hnum.ne_nil
    simp [text]
    omega
  | hex => simp [text]

theorem becomes_text_iff {t : Lexeme} (hjoin : t ≠ letter '\n')
    : t.Becomes t.text ↔ ∀ c, ¬t.Denotes c := by
  constructor
  . intro h c hc
    have hlen := two_le_length_text hc
    generalize hout : t.text = out at h
    cases h with
    | escape => simp [hout] at hlen
    | join => contradiction
    | verbatim hnone => exact hnone c hc
  . intro hnone
    exact .verbatim hnone hjoin

theorem readEscape_letter_verbatim {l : Char} (hjoin : l ≠ '\n') (hoctal : isOctalDigit l = false)
    (hhex : ∀ width, (l, width) ∉ hexWidths) (hnone : ∀ c, (l, c) ∉ letterEscapes) (rest : List Char)
    : readEscape (l :: rest) = (['\\', l], rest) := by
  unfold readEscape
  simp [escapeOf?_eq_none hjoin hnone, hoctal, hexWidth?_eq_none hhex]

theorem readEscape_hex_verbatim {l : Char} {width : Nat} {digits rest : List Char}
    (hl : (l, width) ∈ hexWidths) (hrun : LongestRun isHexDigit width digits rest)
    (hnone : ∀ c, ¬Denotes (hex l digits) c)
    : readEscape (l :: (digits ++ rest)) = ('\\' :: l :: digits, rest) := by
  have hchar : (if digits.length = width then charOf? (numberOf 16 digits) else none) = none := by
    rw [not_denotes_hex_iff hl hrun] at hnone
    split
    . cases hnone with
      | inl hlt => omega
      | inr hlarge =>
        rcases hlarge with ⟨n, hn, hrange⟩
        rw [hn.numberOf_eq (by decide) (by decide), charOf?_eq_none_iff]
        exact hrange
    . rfl
  rw [readEscape_digits hl hrun.leadingDigits_eq, hchar, Option.elim_none]

theorem Denotes.spells {t : Lexeme} {c : Char} {rest : List Char} (ht : t.Fits rest)
    (h : t.Denotes c) : Spells rest c t.text := by
  cases h with
  | letter hl => exact .letter hl
  | octal hnum =>
    cases ht with
    | octal hne hrun =>
      apply Spells.octal hnum hrun.length_le
      intro hlt d hd
      have := hrun.stops hlt d hd
      simpa [isOctalDigit] using this
  | hex hnum hlen => exact .hex hnum hlen

theorem unescape_append {t : Lexeme} {out rest : List Char} (ht : t.Fits rest) (h : t.Becomes out)
    : unescape (t.text ++ rest) = out ++ unescape rest := by
  cases h with
  | escape hc => exact unescape_append_of_spells (hc.spells ht)
  | join =>
    show unescape ('\\' :: '\n' :: rest) = _
    rw [unescape_backslash]
    rfl
  | verbatim hnone hjoin =>
    cases ht with
    | char hc => exact unescape_cons_of_ne hc rest
    | @letter l hoctal hhex =>
      have hl : ∀ c, (l, c) ∉ letterEscapes := by
        intro c hc
        exact hnone c (.letter hc)
      show unescape ('\\' :: l :: rest) = _
      rw [unescape_backslash, readEscape_letter_verbatim (by simpa using hjoin) hoctal hhex hl]
      rfl
    | octal hne hrun =>
      rcases exists_denotes_octal (.octal hne hrun) with ⟨c, hc, _⟩
      exact absurd hc (hnone c)
    | @hex l width digits hl hrun =>
      show unescape ('\\' :: l :: (digits ++ rest)) = _
      rw [unescape_backslash, readEscape_hex_verbatim hl hrun hnone]
      rfl
    | backslash hrest =>
      subst hrest
      show unescape ['\\'] = _
      rw [unescape_backslash]
      rfl

end Lexeme

namespace Cut

variable {raw : List Char} {ts : List Lexeme}

theorem text_eq (h : Cut raw ts) : ts.flatMap Lexeme.text = raw := by
  induction h with
  | nil => rfl
  | cons _ _ ih => rw [List.flatMap_cons, ih]

theorem exists_fits (h : Cut raw ts) {t : Lexeme} (ht : t ∈ ts) : ∃ rest, t.Fits rest := by
  induction h with
  | nil => contradiction
  | @cons u rest us hu _ ih =>
    rw [List.mem_cons] at ht
    cases ht with
    | inl heq =>
      subst heq
      exact ⟨rest, hu⟩
    | inr hmem => exact ih hmem

theorem unique {us : List Lexeme} (h : Cut raw ts) (h' : Cut raw us) : us = ts := by
  induction h generalizing us with
  | nil =>
    generalize hraw : [] = raw at h'
    cases h' with
    | nil => rfl
    | @cons t => cases t <;> contradiction
  | @cons t rest ts ht _ ih =>
    generalize hraw : t.text ++ rest = raw at h'
    cases h' with
    | nil => cases t <;> contradiction
    | @cons u rest' us hu h' =>
      have heq := Lexeme.Fits.unique ht hu hraw
      subst heq
      rw [List.append_cancel_left_eq] at hraw
      subst hraw
      rw [ih h']

end Cut

theorem exists_cut (raw : List Char) : ∃ ts, Cut raw ts := by
  induction h : raw.length using Nat.strongRecOn generalizing raw with
  | ind n ih =>
    by_cases hraw : raw = []
    . subst hraw
      exact ⟨[], .nil⟩
    . rcases Lexeme.exists_fits hraw with ⟨t, rest, rfl, ht⟩
      have hlt : rest.length < n := by
        cases t <;> simp [Lexeme.text] at h <;> omega
      rcases ih rest.length hlt rest rfl with ⟨ts, hts⟩
      exact ⟨t :: ts, .cons ht hts⟩

theorem utf8ByteSize_ofList_append (cs ds : List Char)
    : (String.ofList (cs ++ ds)).utf8ByteSize
        =
      (String.ofList cs).utf8ByteSize + (String.ofList ds).utf8ByteSize
      := by
  rw [String.ofList_append, String.utf8ByteSize_append]

theorem utf8ByteSize_ofList_singleton (c : Char) : (String.ofList [c]).utf8ByteSize = c.utf8Size := by
  rw [← String.singleton_eq_ofList, String.utf8ByteSize_singleton]

theorem length_le_utf8ByteSize (cs : List Char) : cs.length ≤ (String.ofList cs).utf8ByteSize := by
  induction cs with
  | nil => simp
  | cons c cs ih =>
    have hpos := c.utf8Size_pos
    rw [← List.singleton_append, utf8ByteSize_ofList_append, utf8ByteSize_ofList_singleton]
    simp
    omega

theorem Lexeme.Denotes.utf8Size_le {t : Lexeme} {c : Char} {rest : List Char} (ht : t.Fits rest)
    (h : t.Denotes c) : c.utf8Size ≤ t.text.length := by
  have hfour := c.utf8Size_le_four
  cases h with
  | letter hl =>
    have hascii : ∀ e ∈ letterEscapes, e.2.utf8Size ≤ 2 := by decide
    exact hascii _ hl
  | @octal digits _ hnum =>
    cases ht with
    | octal hne hrun =>
      simp [text]
      by_cases hlen : digits.length = 3
      . omega
      . -- Two digits write no more than 63, which is one byte.
        have hlt : numberOf 8 digits < 8 ^ 2 := by
          apply hrun.numberOf_lt_of_octal
          have := hrun.length_le
          omega
        rw [hnum.numberOf_eq (by decide) (by decide)] at hlt
        have hone : c.utf8Size = 1 := by
          rw [Char.utf8Size_eq_one_iff, UInt32.le_iff_toNat_le]
          apply Nat.le_of_lt_succ
          apply Nat.lt_trans hlt
          decide
        omega
  | hex hnum hlen =>
    have := two_le_of_mem_hexWidths hlen
    simp [text]
    omega

theorem Lexeme.Becomes.utf8ByteSize_le {t : Lexeme} {out rest : List Char} (ht : t.Fits rest)
    (h : t.Becomes out) : (String.ofList out).utf8ByteSize ≤ (String.ofList t.text).utf8ByteSize := by
  cases h with
  | escape hc =>
    rw [utf8ByteSize_ofList_singleton]
    apply Nat.le_trans (hc.utf8Size_le ht)
    apply length_le_utf8ByteSize
  | join => simp
  | verbatim => exact Nat.le_refl _

namespace Cut

variable {raw : List Char} {ts : List Lexeme} {outs : List (List Char)}

theorem unescape_eq (h : Cut raw ts)
    (houts : List.Forall₂ Lexeme.Becomes ts outs) : unescape raw = outs.flatten := by
  induction h generalizing outs with
  | nil =>
    cases houts with
    | nil => rw [unescape, List.flatten_nil]
  | cons ht _ ih =>
    cases houts with
    | cons hout houts => rw [Lexeme.unescape_append ht hout, ih houts, List.flatten_cons]

theorem utf8ByteSize_le (h : Cut raw ts) (houts : List.Forall₂ Lexeme.Becomes ts outs)
    : (String.ofList outs.flatten).utf8ByteSize ≤ (String.ofList raw).utf8ByteSize := by
  induction h generalizing outs with
  | nil =>
    cases houts with
    | nil => exact Nat.le_refl _
  | cons ht _ ih =>
    cases houts with
    | cons hout houts =>
      rw [List.flatten_cons, utf8ByteSize_ofList_append, utf8ByteSize_ofList_append]
      apply Nat.add_le_add (hout.utf8ByteSize_le ht) (ih houts)

end Cut

theorem flatten_eq_of_verbatim {ts : List Lexeme} {outs : List (List Char)}
    (houts : List.Forall₂ Lexeme.Becomes ts outs)
    (h : ∀ t ∈ ts, t ≠ .letter '\n' ∧ ∀ c, ¬t.Denotes c) : outs.flatten = ts.flatMap Lexeme.text := by
  induction houts with
  | nil => rfl
  | @cons t out ts outs hout _ ih =>
    rw [List.forall_mem_cons] at h
    have hverbatim : out = t.text := by
      cases hout with
      | escape hc => exact absurd hc (h.1.2 _)
      | join => exact absurd rfl h.1.1
      | verbatim => rfl
    rw [List.flatten_cons, List.flatMap_cons, hverbatim, ih h.2]

theorem exists_forall₂_becomes (ts : List Lexeme) : ∃ outs, List.Forall₂ Lexeme.Becomes ts outs := by
  induction ts with
  | nil => exact ⟨[], .nil⟩
  | cons t ts ih =>
    rcases t.exists_becomes with ⟨out, hout⟩
    rcases ih with ⟨outs, houts⟩
    exact ⟨out :: outs, .cons hout houts⟩

/--
A literal cut into its lexemes, with what each of them is replaced by. Digits in base 16 may be too few, or
write the number of no character; in base 8 neither can happen.
-/
structure ReadBy (raw : List Char) (ts : List Lexeme) (outs : List (List Char)) : Prop where
  cut : Cut raw ts
  cut_unique : ∀ us, Cut raw us → us = ts
  text_eq : ts.flatMap Lexeme.text = raw
  becomes : List.Forall₂ Lexeme.Becomes ts outs
  hex_verbatim : ∀ l width digits, .hex l digits ∈ ts → (l, width) ∈ hexWidths →
    ((Lexeme.hex l digits).Becomes (Lexeme.hex l digits).text ↔
      digits.length < width ∨ ∃ n, Numeral 16 n digits ∧ (0xD800 ≤ n ∧ n ≤ 0xDFFF ∨ 0x10FFFF < n))
  octal_escape : ∀ digits, .octal digits ∈ ts →
    ¬(Lexeme.octal digits).Becomes (Lexeme.octal digits).text ∧ (charOf? (numberOf 8 digits)).isSome

theorem exists_readBy (raw : List Char) : ∃ ts outs, ReadBy raw ts outs := by
  rcases exists_cut raw with ⟨ts, hcut⟩
  rcases exists_forall₂_becomes ts with ⟨outs, houts⟩
  refine ⟨ts, outs, hcut, fun us hus => hcut.unique hus, hcut.text_eq, houts, ?_, ?_⟩
  . intro l width digits hmem hl
    rcases hcut.exists_fits hmem with ⟨rest, hfits⟩
    rw [Lexeme.becomes_text_iff (by simp)]
    cases hfits with
    | hex hl' hrun =>
      rw [Lexeme.width_eq hl' hl] at hrun
      exact Lexeme.not_denotes_hex_iff hl hrun
  . intro digits hmem
    rcases hcut.exists_fits hmem with ⟨rest, hfits⟩
    rcases Lexeme.exists_denotes_octal hfits with ⟨c, hc, hchar⟩
    rw [Lexeme.becomes_text_iff (by simp), hchar]
    exact ⟨fun hnone => hnone c hc, rfl⟩

/--
Reading a literal is replacing its lexemes.
-/
theorem unescape_by_lexemes (raw : List Char)
    : (∃ ts outs, ReadBy raw ts outs ∧
        unescape raw = outs.flatten ∧
        ((∀ t ∈ ts, t ≠ .letter '\n' ∧ ∀ c, ¬t.Denotes c) → unescape raw = raw)) ∧
      (String.ofList (unescape raw)).utf8ByteSize ≤ (String.ofList raw).utf8ByteSize := by
  rcases exists_readBy raw with ⟨ts, outs, h⟩
  have hflatten := h.cut.unescape_eq h.becomes
  constructor
  . refine ⟨ts, outs, h, hflatten, ?_⟩
    intro hverbatim
    rw [hflatten, flatten_eq_of_verbatim h.becomes hverbatim, h.text_eq]
  . rw [hflatten]
    apply h.cut.utf8ByteSize_le h.becomes

example : unescape "\\ud800\\x4\\101\\q\\\n\\".toList = "\\ud800\\x4A\\q\\".toList := by cbv

end CallFlow.Text
