import CallFlow.Proofs.Text.Chars

/-!
This module contains when the summary of a docstring says something. A line of white space that goes beyond
the margin is not dropped, so it becomes the summary if it comes first (`nonblank_summary_iff`).
-/

namespace CallFlow.Text

def AllBlank (cs : List Char) : Prop := ∀ c ∈ cs, isBlank c = true

instance (cs : List Char) : Decidable (AllBlank cs) :=
  decidable_of_iff (cs.all isBlank = true) List.all_eq_true

/--
How far the lines of some text with their margin go in; not at all if they are white space only.
-/
def marginWidth (ls : List (List Char)) : Nat := (margin? ls).getD 0

/--
A text that has white space only in its first line, and between the margin and the first line boundary of
the first later line that goes beyond the margin.
-/
def OpensBlank : List (List Char) → Prop
  | [] => False
  | first :: later =>
    AllBlank first ∧
      ∃ l ∈ later.find? (marginWidth later < ·.length),
        firstLine (l.drop (marginWidth later)) ≠ [] ∧ AllBlank (firstLine (l.drop (marginWidth later)))

instance (ls : List (List Char)) : Decidable (OpensBlank ls) := by
  cases ls with
  | nil => exact inferInstanceAs (Decidable False)
  | cons first later => exact inferInstanceAs (Decidable (_ ∧ ∃ l ∈ List.find? _ later, _))

theorem dedent_eq_map (ls : List (List Char)) : dedent ls = ls.map (·.drop (marginWidth ls)) := by
  unfold dedent marginWidth
  cases margin? ls with
  | none => simp
  | some width => rfl

theorem alignLines_cons (l : List Char) (ls : List (List Char))
    : alignLines (l :: ls) = l.dropWhile isBlank :: dedent ls := rfl

theorem exists_eq_append_of_reverse (ls : List (List Char))
    : ∃ after, ls = (ls.reverse.dropWhile (·.isEmpty)).reverse ++ after ∧ ∀ l ∈ after, l = [] := by
  refine ⟨(ls.reverse.takeWhile (·.isEmpty)).reverse, ?_, ?_⟩
  . rw [← List.reverse_append, List.takeWhile_append_dropWhile, List.reverse_reverse]
  . intro l hl
    rw [List.mem_reverse] at hl
    have := List.mem_takeWhile_imp hl
    simpa using this

theorem head?_trimLines (ls : List (List Char))
    : (trimLines ls).head? = ls.find? fun l => !l.isEmpty := by
  -- What is dropped at the end is empty, so it does not hold the first line that is more.
  rcases exists_eq_append_of_reverse ls with ⟨after, hsplit, hafter⟩
  have hnone : after.find? (fun l => !l.isEmpty) = none := by
    rw [List.find?_eq_none]
    intro l hl
    simp [hafter l hl]
  unfold trimLines
  rw [← List.find?_not_eq_head?_dropWhile]
  conv => rhs; rw [hsplit, List.find?_append, hnone, Option.or_none]

theorem firstLine_append_newline (l cs : List Char) : firstLine (l ++ '\n' :: cs) = firstLine l := by
  induction l with
  | nil => rfl
  | cons c l ih =>
    unfold firstLine at ih ⊢
    rw [List.cons_append, List.takeWhile_cons, List.takeWhile_cons, ih]

theorem firstLine_unlines_cons (l : List Char) (ls : List (List Char))
    : firstLine (unlines (l :: ls)) = firstLine l := by
  unfold unlines
  cases ls with
  | nil => rw [List.intercalate_singleton]
  | cons l' ls =>
    rw [List.intercalate_cons_cons, List.append_assoc, List.singleton_append, firstLine_append_newline]

theorem summary_eq_firstLine (cs : List Char)
    : summary cs
        =
      firstLine (((alignLines (lines (expandTabs cs))).find? fun l => !l.isEmpty).getD [])
      := by
  unfold summary clean
  rw [← head?_trimLines]
  cases trimLines (alignLines (lines (expandTabs cs))) with
  | nil => rfl
  | cons l ls => exact firstLine_unlines_cons l ls

theorem summary_of_text_first {cs first : List Char} {later : List (List Char)}
    (hlines : lines (expandTabs cs) = first :: later) (h : ¬AllBlank first)
    : summary cs = firstLine (first.dropWhile isBlank) := by
  have hne : (first.dropWhile isBlank).isEmpty = false := by
    rw [List.isEmpty_eq_false_iff, Ne, List.dropWhile_eq_nil_iff]
    exact h
  rw [summary_eq_firstLine, hlines, alignLines_cons, List.find?_cons_of_pos (by simp [hne]),
    Option.getD_some]

theorem summary_of_blank_first {cs first : List Char} {later : List (List Char)}
    (hlines : lines (expandTabs cs) = first :: later) (h : AllBlank first)
    : summary cs
        =
      firstLine (((later.find? (marginWidth later < ·.length)).getD []).drop (marginWidth later))
      := by
  have hempty : first.dropWhile isBlank = [] := by
    rw [List.dropWhile_eq_nil_iff]
    exact h
  -- A line is empty without its margin exactly if it does not go beyond it.
  have hbeyond : ((fun l : List Char => !l.isEmpty) ∘ (·.drop (marginWidth later)))
      = fun l : List Char => decide (marginWidth later < l.length) := by
    funext l
    rw [Bool.eq_iff_iff]
    simp
  rw [summary_eq_firstLine, hlines, alignLines_cons, hempty, List.find?_cons_of_neg (by simp),
    dedent_eq_map, List.find?_map, hbeyond]
  cases later.find? (marginWidth later < ·.length) <;> simp

theorem firstLine_dropWhile_isBlank (l : List Char)
    : firstLine (l.dropWhile isBlank) = [] ∨ ∃ c ∈ firstLine (l.dropWhile isBlank), isBlank c = false := by
  cases h : l.dropWhile isBlank with
  | nil => exact .inl rfl
  | cons c cs =>
    have hc := List.head?_dropWhile_not isBlank l
    rw [h] at hc
    -- The first character is text, but may be a line boundary all the same, such as `\x1c`.
    unfold firstLine
    rw [List.takeWhile_cons]
    split
    . exact .inr ⟨c, List.mem_cons_self, hc⟩
    . exact .inl rfl

theorem blank_summary_iff (cs : List Char)
    : (summary cs ≠ [] ∧ AllBlank (summary cs)) ↔ OpensBlank (lines (expandTabs cs)) := by
  cases hlines : lines (expandTabs cs) with
  | nil => exact absurd hlines (pieces_ne_nil _ _)
  | cons first later =>
    unfold OpensBlank
    by_cases h : AllBlank first
    . rw [summary_of_blank_first hlines h]
      cases hfind : later.find? (marginWidth later < ·.length) with
      | none =>
        rw [Option.getD_none, List.drop_nil]
        constructor
        . rintro ⟨hne, _⟩
          exact absurd rfl hne
        . rintro ⟨_, l, hl, _⟩
          rw [hfind] at hl
          contradiction
      | some l =>
        rw [Option.getD_some]
        constructor
        . intro hsummary
          exact ⟨h, l, hfind, hsummary⟩
        . rintro ⟨_, l', hl', hsummary⟩
          rw [hfind, Option.mem_some_iff] at hl'
          subst hl'
          exact hsummary
    . have hnot : ¬(summary cs ≠ [] ∧ AllBlank (summary cs)) := by
        rw [summary_of_text_first hlines h]
        rintro ⟨hne, hblank⟩
        rcases firstLine_dropWhile_isBlank first with hnil | ⟨c, hc, htext⟩
        . exact hne hnil
        . rw [hblank c hc] at htext
          contradiction
      apply iff_of_false hnot
      intro hopens
      exact h hopens.1

theorem AllBlank.summary {cs : List Char} (h : AllBlank cs) : AllBlank (summary cs) := by
  intro c hc
  unfold Text.summary firstLine at hc
  cases mem_clean ((List.takeWhile_prefix _).subset hc) with
  | inl heq =>
    subst heq
    decide
  | inr hmem =>
    cases mem_expandTabs hmem with
    | inl heq =>
      subst heq
      decide
    | inr hmem => exact h c hmem.1

/--
A summary is empty or has text in it unless the docstring opens with a blank line beyond the margin. Of
white space alone it is empty unless the docstring opens so.
-/
theorem nonblank_summary_iff (cs : List Char)
    : ((summary cs = [] ∨ ∃ c ∈ summary cs, isBlank c = false) ↔
          ¬OpensBlank (lines (expandTabs cs))) ∧
        (AllBlank cs → (summary cs = [] ↔ ¬OpensBlank (lines (expandTabs cs)))) := by
  rw [← blank_summary_iff]
  constructor
  . unfold AllBlank
    rw [not_and_or, not_not]
    simp
  . intro h
    rw [and_iff_left h.summary, not_not]

/--
White space on three lines. The first that goes beyond the margin has its boundary there.
-/
theorem nonblank_summary_iff_vertical_tab
    : AllBlank " \n\n\x0b ".toList ∧
        ¬OpensBlank (lines (expandTabs " \n\n\x0b ".toList)) ∧
        summary " \n\n\x0b ".toList = [] := by
  have hblank : AllBlank " \n\n\x0b ".toList := by decide
  have hopens : ¬OpensBlank (lines (expandTabs " \n\n\x0b ".toList)) := by decide
  exact ⟨hblank, hopens, ((nonblank_summary_iff _).2 hblank).mpr hopens⟩

/--
White space on two lines, the second as far in as the quotes behind it may be; and a line of it that goes
further in than the text behind it.
-/
theorem blank_summary_of_white_space
    : AllBlank "\n    ".toList ∧
        summary "\n    ".toList = "    ".toList ∧
        summary "\n      \n    Text".toList = "  ".toList := by
  decide

end CallFlow.Text
