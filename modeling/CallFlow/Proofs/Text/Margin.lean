import CallFlow.Proofs.Text.Tabs

/-!
This module contains the common margin of some lines, and that it goes along with them: a docstring is clean
in the same way however deep its function is indented (`clean_indentLater`).
-/

namespace CallFlow.Text

/--
The lines that are more than white space.
-/
def textLines (ls : List (List Char)) : List (List Char) := ls.filter fun l => !l.all isBlank

theorem mem_textLines_iff {ls : List (List Char)} {l : List Char}
    : l ∈ textLines ls ↔ l ∈ ls ∧ ¬AllBlank l := by
  unfold textLines AllBlank
  rw [List.mem_filter]
  simp

theorem margin?_eq_min? (ls : List (List Char)) : margin? ls = ((textLines ls).map indent).min? := rfl

theorem margin?_eq_some_iff {ls : List (List Char)} {width : Nat}
    : margin? ls = some width
        ↔
      (∃ l ∈ ls, ¬AllBlank l ∧ indent l = width) ∧ ∀ l ∈ ls, ¬AllBlank l → width ≤ indent l
      := by
  rw [margin?_eq_min?, List.min?_eq_some_iff, List.mem_map, List.forall_mem_map]
  simp only [mem_textLines_iff, and_assoc, and_imp]

theorem exists_margin?_eq_some {ls : List (List Char)} (h : ∃ l ∈ ls, ¬AllBlank l)
    : ∃ width, margin? ls = some width := by
  rcases h with ⟨l, hl⟩
  rw [← mem_textLines_iff] at hl
  rw [margin?_eq_min?, ← Option.isSome_iff_exists]
  exact List.isSome_min?_of_mem (List.mem_map_of_mem hl)

theorem marginWidth_eq {ls : List (List Char)} {width : Nat} (h : margin? ls = some width)
    : marginWidth ls = width := by
  unfold marginWidth
  rw [h, Option.getD_some]

theorem marginWidth_le_indent {ls : List (List Char)} {l : List Char} (hl : l ∈ ls)
    (htext : ¬AllBlank l) : marginWidth ls ≤ indent l := by
  rcases exists_margin?_eq_some ⟨l, hl, htext⟩ with ⟨width, hwidth⟩
  rw [marginWidth_eq hwidth]
  apply (margin?_eq_some_iff.mp hwidth).2 l hl htext

theorem exists_indent_eq_marginWidth {ls : List (List Char)} (h : ∃ l ∈ ls, ¬AllBlank l)
    : ∃ l ∈ ls, ¬AllBlank l ∧ indent l = marginWidth ls := by
  rcases exists_margin?_eq_some h with ⟨width, hwidth⟩
  rw [marginWidth_eq hwidth]
  apply (margin?_eq_some_iff.mp hwidth).1

theorem allBlank_replicate_append_iff {width : Nat} {l : List Char}
    : AllBlank (List.replicate width ' ' ++ l) ↔ AllBlank l := by
  rw [← nonblank_eq_nil_iff, nonblank_of_append (allBlank_replicate width), nonblank_eq_nil_iff]

theorem indent_replicate_append (width : Nat) (l : List Char)
    : indent (List.replicate width ' ' ++ l) = width + indent l := by
  unfold indent
  rw [List.takeWhile_append_of_pos (allBlank_replicate width), List.length_append,
    List.length_replicate]

theorem marginWidth_map_replicate_append (width : Nat) {ls : List (List Char)}
    (h : ∃ l ∈ ls, ¬AllBlank l)
    : marginWidth (ls.map (List.replicate width ' ' ++ ·)) = width + marginWidth ls := by
  apply marginWidth_eq
  rw [margin?_eq_some_iff]
  constructor
  . rcases exists_indent_eq_marginWidth h with ⟨l, hl, htext, hindent⟩
    refine ⟨_, List.mem_map_of_mem hl, ?_, ?_⟩
    . rw [allBlank_replicate_append_iff]
      exact htext
    . rw [indent_replicate_append, hindent]
  . intro l hl htext
    rw [List.mem_map] at hl
    rcases hl with ⟨m, hm, rfl⟩
    rw [allBlank_replicate_append_iff] at htext
    rw [indent_replicate_append]
    apply Nat.add_le_add_left
    apply marginWidth_le_indent hm htext

theorem dedent_map_replicate_append (width : Nat) {ls : List (List Char)} (h : ∃ l ∈ ls, ¬AllBlank l)
    : dedent (ls.map (List.replicate width ' ' ++ ·)) = dedent ls := by
  rw [dedent_eq_map, dedent_eq_map, marginWidth_map_replicate_append width h, List.map_map]
  apply List.map_congr_left
  intro l _
  simp [List.drop_append]

/--
A text with blanks put before each of its lines but the first.
-/
def indentLater (width : Nat) (cs : List Char) : List Char :=
  match lines cs with
  | [] => []
  | first :: later => unlines (first :: later.map (List.replicate width ' ' ++ ·))

theorem lines_indentLater {width : Nat} {cs first : List Char} {later : List (List Char)}
    (h : lines cs = first :: later)
    : lines (indentLater width cs) = first :: later.map (List.replicate width ' ' ++ ·) := by
  have hlines : ∀ l ∈ first :: later, '\n' ∉ l := by
    intro l hl
    rw [← h] at hl
    apply sep_not_mem_of_mem_pieces hl
  rw [List.forall_mem_cons] at hlines
  unfold indentLater
  rw [h]
  apply lines_unlines (by simp)
  rw [List.forall_mem_cons]
  refine ⟨hlines.1, ?_⟩
  intro l hl
  rw [List.mem_map] at hl
  rcases hl with ⟨m, hm, rfl⟩
  rw [List.mem_append, List.mem_replicate, not_or]
  exact ⟨by simp, hlines.2 m hm⟩

/--
The clean text does not depend on how deep the lines after the first are indented. Where there are tabs, the
blanks must not move their stops.
-/
theorem clean_indentLater {width : Nat} {cs : List Char} (htext : ∃ l ∈ (lines cs).tail, ¬AllBlank l)
    (htabs : '\t' ∈ cs → 8 ∣ width)
    : clean (indentLater width cs) = clean cs ∧ summary (indentLater width cs) = summary cs := by
  cases hlines : lines cs with
  | nil => exact absurd hlines (pieces_ne_nil '\n' cs)
  | cons first later =>
    have hlater : ∃ l ∈ later.map expandTabs, ¬AllBlank l := by
      rw [hlines, List.tail_cons] at htext
      rcases htext with ⟨l, hl, htext⟩
      refine ⟨expandTabs l, List.mem_map_of_mem hl, ?_⟩
      rw [allBlank_expandTabs_iff]
      exact htext
    have hexpand : (later.map (List.replicate width ' ' ++ ·)).map expandTabs
        = (later.map expandTabs).map (List.replicate width ' ' ++ ·) := by
      rw [List.map_map, List.map_map]
      apply List.map_congr_left
      intro l hl
      apply expandTabs_replicate_append
      intro htab
      have hmem : l ∈ lines cs := by
        rw [hlines]
        exact List.mem_cons_of_mem first hl
      apply htabs
      exact mem_of_mem_pieces hmem htab
    have hclean : clean (indentLater width cs) = clean cs := by
      unfold clean
      rw [lines_expandTabs, lines_expandTabs, lines_indentLater hlines, hlines, List.map_cons,
        List.map_cons, hexpand, alignLines_cons, alignLines_cons, dedent_map_replicate_append width hlater]
    refine ⟨hclean, ?_⟩
    unfold summary
    rw [hclean]

/--
Tabs behind a carriage return and behind other white space, and a line that is shorter than the margin.
-/
theorem clean_indentLater_tabs
    : (∃ l ∈ (lines "A\n\r\tb\n \n\u00a0\tc\n".toList).tail, ¬AllBlank l) ∧
        ('\t' ∈ "A\n\r\tb\n \n\u00a0\tc\n".toList → 8 ∣ 16) ∧
        clean (indentLater 16 "A\n\r\tb\n \n\u00a0\tc\n".toList) = "A\n b\n\nc".toList ∧
        summary (indentLater 16 "A\n\r\tb\n \n\u00a0\tc\n".toList) = "A".toList := by
  have htext : ∃ l ∈ (lines "A\n\r\tb\n \n\u00a0\tc\n".toList).tail, ¬AllBlank l := by decide
  have hdvd : 8 ∣ 16 := by decide
  rcases clean_indentLater htext (fun _ => hdvd) with ⟨hclean, hsummary⟩
  rw [hclean, hsummary]
  refine ⟨htext, fun _ => hdvd, ?_, ?_⟩ <;> decide

end CallFlow.Text
