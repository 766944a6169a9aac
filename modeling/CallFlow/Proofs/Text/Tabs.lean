import CallFlow.Proofs.Text.Summary

/-!
This module contains that tabs are expanded in each line on its own (`lines_expandTabs`), to white space
(`nonblank_expandTabs`). Blanks before a line do not change that if they reach to a tab stop
(`expandTabs_replicate_append`).
-/

namespace CallFlow.Text

/--
The characters of a text that are not white space.
-/
def nonblank (cs : List Char) : List Char := cs.filter fun c => !isBlank c

@[simp]
theorem nonblank_append (cs ds : List Char) : nonblank (cs ++ ds) = nonblank cs ++ nonblank ds :=
  List.filter_append cs ds

theorem nonblank_cons (c : Char) (cs : List Char)
    : nonblank (c :: cs) = if isBlank c then nonblank cs else c :: nonblank cs := by
  unfold nonblank
  cases h : isBlank c <;> simp [h]

theorem nonblank_eq_nil_iff {cs : List Char} : nonblank cs = [] ↔ AllBlank cs := by
  unfold nonblank AllBlank
  simp

theorem nonblank_of_append {before l : List Char} (h : AllBlank before)
    : nonblank (before ++ l) = nonblank l := by
  rw [nonblank_append, nonblank_eq_nil_iff.mpr h, List.nil_append]

theorem allBlank_replicate (width : Nat) : AllBlank (List.replicate width ' ') := by
  intro c hc
  rw [List.eq_of_mem_replicate hc]
  decide

@[simp]
theorem nonblank_expandTabs (cs : List Char) : nonblank (expandTabs cs) = nonblank cs := by
  unfold expandTabs
  generalize 0 = column
  induction cs generalizing column with
  | nil => rfl
  | cons c cs ih =>
    unfold expandTabsFrom
    split
    . next hc =>
      have htab : isBlank c = true := by
        rw [hc]
        decide
      rw [nonblank_of_append (allBlank_replicate _), ih, nonblank_cons, if_pos htab]
    . split
      . rw [nonblank_cons, nonblank_cons, ih]
      . rw [nonblank_cons, nonblank_cons, ih]

theorem expandTabsFrom_append_lineEnd {s : Char} (hs : s = '\n' ∨ s = '\r') (column : Nat)
    (l cs : List Char)
    : expandTabsFrom column (l ++ s :: cs) = expandTabsFrom column l ++ s :: expandTabs cs := by
  induction l generalizing column with
  | nil =>
    have htab : s ≠ '\t' := by
      rintro rfl
      simp at hs
    have hline : expandTabsFrom column (s :: cs) = s :: expandTabsFrom 0 cs := by
      rw [expandTabsFrom, if_neg htab, if_pos hs]
    exact hline
  | cons c l ih =>
    rw [List.cons_append]
    unfold expandTabsFrom
    split
    . simp [ih]
    . split <;> simp [ih]

theorem expandTabs_unlines (ls : List (List Char))
    : expandTabs (unlines ls) = unlines (ls.map expandTabs) := by
  unfold unlines
  induction ls with
  | nil => rfl
  | cons l ls ih =>
    cases ls with
    | nil => simp
    | cons m ls =>
      rw [List.map_cons] at ih
      rw [List.map_cons, List.map_cons, List.intercalate_cons_cons, List.intercalate_cons_cons, ← ih]
      simp [expandTabs, expandTabsFrom_append_lineEnd]

theorem allBlank_expandTabs_iff {cs : List Char} : AllBlank (expandTabs cs) ↔ AllBlank cs := by
  rw [← nonblank_eq_nil_iff, nonblank_expandTabs, nonblank_eq_nil_iff]

theorem lines_expandTabs (cs : List Char) : lines (expandTabs cs) = (lines cs).map expandTabs := by
  have hne : (lines cs).map expandTabs ≠ [] := by
    rw [Ne, List.map_eq_nil_iff]
    apply pieces_ne_nil
  have hlines : ∀ l ∈ (lines cs).map expandTabs, '\n' ∉ l := by
    intro l hl hmem
    rw [List.mem_map] at hl
    rcases hl with ⟨m, hm, rfl⟩
    cases mem_expandTabs hmem with
    | inl heq => contradiction
    | inr hmem => exact sep_not_mem_of_mem_pieces hm hmem.1
  calc lines (expandTabs cs) = lines (expandTabs (unlines (lines cs))) := by rw [unlines_lines]
    _ = lines (unlines ((lines cs).map expandTabs)) := by rw [expandTabs_unlines]
    _ = (lines cs).map expandTabs := lines_unlines hne hlines

theorem expandTabsFrom_of_tab_not_mem {cs : List Char} (h : '\t' ∉ cs) (column : Nat)
    : expandTabsFrom column cs = cs := by
  induction cs generalizing column with
  | nil => rfl
  | cons c cs ih =>
    rw [List.mem_cons, not_or] at h
    unfold expandTabsFrom
    rw [if_neg (Ne.symm h.1)]
    split <;> rw [ih h.2]

theorem expandTabsFrom_add_of_dvd {width : Nat} (h : tabSize ∣ width) (column : Nat) (cs : List Char)
    : expandTabsFrom (column + width) cs = expandTabsFrom column cs := by
  induction cs generalizing column with
  | nil => rfl
  | cons c cs ih =>
    have hmod : (column + width) % tabSize = column % tabSize := by
      rcases h with ⟨n, rfl⟩
      apply Nat.add_mul_mod_self_left
    unfold expandTabsFrom
    split
    . dsimp only
      rw [hmod, Nat.add_right_comm, ih]
    . split
      . rfl
      . rw [Nat.add_right_comm, ih]

theorem expandTabsFrom_blank (column : Nat) (cs : List Char)
    : expandTabsFrom column (' ' :: cs) = ' ' :: expandTabsFrom (column + 1) cs := by
  simp [expandTabsFrom]

theorem expandTabsFrom_replicate_append (column width : Nat) (cs : List Char)
    : expandTabsFrom column (List.replicate width ' ' ++ cs)
        =
      List.replicate width ' ' ++ expandTabsFrom (column + width) cs
      := by
  induction width generalizing column with
  | zero => rfl
  | succ width ih =>
    rw [List.replicate_succ, List.cons_append, List.cons_append, expandTabsFrom_blank, ih,
      Nat.add_right_comm, Nat.add_assoc]

theorem expandTabs_replicate_append {width : Nat} {cs : List Char} (h : '\t' ∈ cs → tabSize ∣ width)
    : expandTabs (List.replicate width ' ' ++ cs) = List.replicate width ' ' ++ expandTabs cs := by
  unfold expandTabs
  rw [expandTabsFrom_replicate_append]
  by_cases htab : '\t' ∈ cs
  . rw [expandTabsFrom_add_of_dvd (h htab)]
  . rw [expandTabsFrom_of_tab_not_mem htab, expandTabsFrom_of_tab_not_mem htab]

end CallFlow.Text
