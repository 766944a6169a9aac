import CallFlow.Proofs.Text.Tabs

/-!
This module contains that expanding a tab reaches the next tab stop. The column that the expansion counts is that
of what it has written so far (`expands_expandTabsFrom`), and this alone says what a text is expanded to
(`expandTabs_to_stops`).
-/

namespace CallFlow.Text

/--
The number of characters behind the last line feed or carriage return of a text.
-/
def columnBehind (cs : List Char) : Nat :=
  (cs.reverse.takeWhile fun c => c != '\n' && c != '\r').length

/--
What may be written for a text behind what is written already: blanks up to a tab stop for a tab, and every
other character as it is.
-/
inductive Expands : List Char → List Char → List Char → Prop where
  | nil {out : List Char} : Expands out [] []
  | keep {out cs ds : List Char} {c : Char} (hc : c ≠ '\t') (h : Expands (out ++ [c]) cs ds)
    : Expands out (c :: cs) (c :: ds)
  | tab {out cs ds : List Char} {width : Nat} (hpos : 1 ≤ width) (hle : width ≤ 8)
      (hstop : 8 ∣ columnBehind (out ++ List.replicate width ' '))
      (h : Expands (out ++ List.replicate width ' ') cs ds)
    : Expands out ('\t' :: cs) (List.replicate width ' ' ++ ds)

theorem columnBehind_concat (cs : List Char) (c : Char)
    : columnBehind (cs ++ [c]) = if c = '\n' ∨ c = '\r' then 0 else columnBehind cs + 1 := by
  unfold columnBehind
  rw [List.reverse_concat, List.takeWhile_cons]
  by_cases hc : c = '\n' ∨ c = '\r'
  . rw [if_pos hc, if_neg]
    . rfl
    . cases hc with
      | inl h => simp [h]
      | inr h => simp [h]
  . rw [if_neg hc, if_pos]
    . rfl
    . simpa using hc

theorem columnBehind_append_blanks (cs : List Char) (width : Nat)
    : columnBehind (cs ++ List.replicate width ' ') = columnBehind cs + width := by
  induction width with
  | zero => simp
  | succ width ih =>
    rw [List.replicate_succ', ← List.append_assoc, columnBehind_concat, if_neg (by decide), ih]
    rfl

theorem expandTabsFrom_tab (column : Nat) (cs : List Char)
    : expandTabsFrom column ('\t' :: cs)
        =
      List.replicate (8 - column % 8) ' ' ++ expandTabsFrom (column + (8 - column % 8)) cs
      := by
  rw [expandTabsFrom, if_pos rfl]
  rfl

theorem expandTabsFrom_keep {c : Char} (hc : c ≠ '\t') (out cs : List Char)
    : expandTabsFrom (columnBehind out) (c :: cs)
        =
      c :: expandTabsFrom (columnBehind (out ++ [c])) cs
      := by
  rw [expandTabsFrom, if_neg hc, columnBehind_concat]
  split
  . rfl
  . rfl

theorem expands_expandTabsFrom (out cs : List Char)
    : Expands out cs (expandTabsFrom (columnBehind out) cs) := by
  induction cs generalizing out with
  | nil => exact .nil
  | cons c cs ih =>
    by_cases hc : c = '\t'
    . rw [hc, expandTabsFrom_tab, ← columnBehind_append_blanks]
      apply Expands.tab
      . omega
      . omega
      . rw [columnBehind_append_blanks]
        omega
      . apply ih
    . rw [expandTabsFrom_keep hc]
      apply Expands.keep hc
      apply ih

theorem eq_expandTabsFrom_of_expands {out cs ds : List Char} (h : Expands out cs ds)
    : ds = expandTabsFrom (columnBehind out) cs := by
  induction h with
  | nil => rfl
  | keep hc _ ih => rw [expandTabsFrom_keep hc, ih]
  | @tab out cs ds width hpos hle hstop _ ih =>
    rw [columnBehind_append_blanks] at hstop ih
    have hwidth : width = 8 - columnBehind out % 8 := by omega
    rw [expandTabsFrom_tab, ← hwidth, ih]

theorem expandTabs_eq_iff (cs ds : List Char) : expandTabs cs = ds ↔ Expands [] cs ds := by
  constructor
  . rintro rfl
    exact expands_expandTabsFrom [] cs
  . intro h
    exact (eq_expandTabsFrom_of_expands h).symm

theorem expandTabs_expandTabs (cs : List Char) : expandTabs (expandTabs cs) = expandTabs cs :=
  expandTabsFrom_of_tab_not_mem (tab_not_mem_expandTabs cs) 0

/--
A text is expanded to what has up to eight blanks for each tab, such that they end at a tab stop, and all else
as it is. No tab is left to expand, and lines are expanded one by one.
-/
theorem expandTabs_to_stops
    : (∀ cs ds, expandTabs cs = ds ↔ Expands [] cs ds) ∧
      (∀ cs, '\t' ∉ expandTabs cs) ∧
      (∀ cs, expandTabs (expandTabs cs) = expandTabs cs) ∧
      ∀ s before behind, s = '\n' ∨ s = '\r' →
        expandTabs (before ++ s :: behind) = expandTabs before ++ s :: expandTabs behind := by
  refine ⟨expandTabs_eq_iff, tab_not_mem_expandTabs, expandTabs_expandTabs, ?_⟩
  intro s before behind hs
  exact expandTabsFrom_append_lineEnd hs 0 before behind

/--
Two tabs behind one character, two lines that end in different ways, and a tab behind eight characters.
-/
theorem expandTabs_to_stops_mixed :
    let before := "a\t\tb".toList
    let behind := "\tc\n12345678\té".toList
    let out := "a               b\r        c\n12345678        é".toList
    expandTabs (before ++ '\r' :: behind) = out ∧
      Expands [] (before ++ '\r' :: behind) out ∧
      expandTabs (before ++ '\r' :: behind) = expandTabs before ++ '\r' :: expandTabs behind ∧
      expandTabs out = out := by
  intro before behind out
  rcases expandTabs_to_stops with ⟨hiff, _, hidem, hline⟩
  have hout : expandTabs (before ++ '\r' :: behind) = out := by decide +kernel
  refine ⟨hout, (hiff _ _).mp hout, hline '\r' before behind (.inr rfl), ?_⟩
  rw [← hout]
  exact hidem _

end CallFlow.Text
