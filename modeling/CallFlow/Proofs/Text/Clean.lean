import Mathlib.Data.List.Basic
import CallFlow.Proofs.Text.Margin

/-!
This module contains what cleaning keeps of a docstring: its text to the character, and how far its lines
stand from their margin (`clean_keeps_text`). The body has no part in a summary that stands on the first line
(`summary_of_opening`).
-/

namespace CallFlow.Text

theorem exists_eq_trimLines (ls : List (List Char))
    : ∃ before after, ls = before ++ trimLines ls ++ after ∧
        (∀ l ∈ before, l = []) ∧ ∀ l ∈ after, l = [] := by
  rcases exists_eq_append_of_reverse ls with ⟨after, hsplit, hafter⟩
  refine ⟨(ls.reverse.dropWhile (·.isEmpty)).reverse.takeWhile (·.isEmpty), after, ?_, ?_, hafter⟩
  . unfold trimLines
    rw [List.takeWhile_append_dropWhile]
    exact hsplit
  . intro l hl
    have := List.mem_takeWhile_imp hl
    simpa using this

theorem getLast?_trimLines_ne (ls : List (List Char)) : (trimLines ls).getLast? ≠ some [] := by
  intro h
  -- What is dropped at the start leaves the last line alone.
  have hlast : (ls.reverse.dropWhile (·.isEmpty)).head? = some [] := by
    rw [← List.getLast?_reverse, List.getLast?_eq_some_iff]
    rcases List.getLast?_eq_some_iff.mp h with ⟨init, hinit⟩
    have hsuffix : trimLines ls <:+ (ls.reverse.dropWhile (·.isEmpty)).reverse :=
      List.dropWhile_suffix _
    rcases hsuffix with ⟨before, hbefore⟩
    refine ⟨before ++ init, ?_⟩
    rw [← hbefore, hinit, List.append_assoc]
  have := List.head?_dropWhile_not (·.isEmpty) ls.reverse
  rw [hlast] at this
  contradiction

theorem textLines_append (ls ms : List (List Char))
    : textLines (ls ++ ms) = textLines ls ++ textLines ms :=
  List.filter_append ls ms

theorem textLines_map {f : List Char → List Char} {ls : List (List Char)}
    (h : ∀ l ∈ ls, nonblank (f l) = nonblank l) : textLines (ls.map f) = (textLines ls).map f := by
  unfold textLines
  rw [List.filter_map]
  congr 1
  apply List.filter_congr
  intro l hl
  have hiff : AllBlank (f l) ↔ AllBlank l := by
    rw [← nonblank_eq_nil_iff, h l hl, nonblank_eq_nil_iff]
  unfold AllBlank at hiff
  rw [← List.all_eq_true, ← List.all_eq_true, ← Bool.eq_iff_iff] at hiff
  simp [hiff]

theorem apply_trimLines {β : Type} {f : List (List Char) → List β}
    (happend : ∀ ls ms, f (ls ++ ms) = f ls ++ f ms) (hempty : ∀ ls, (∀ l ∈ ls, l = []) → f ls = [])
    (ls : List (List Char)) : f (trimLines ls) = f ls := by
  rcases exists_eq_trimLines ls with ⟨before, after, hsplit, hbefore, hafter⟩
  conv => rhs; rw [hsplit]
  rw [happend, happend, hempty before hbefore, hempty after hafter, List.nil_append, List.append_nil]

theorem textLines_trimLines (ls : List (List Char)) : textLines (trimLines ls) = textLines ls := by
  apply apply_trimLines textLines_append
  intro ms h
  unfold textLines
  rw [List.filter_eq_nil_iff]
  intro l hl
  simp [h l hl]

theorem flatMap_nonblank_trimLines (ls : List (List Char))
    : (trimLines ls).flatMap nonblank = ls.flatMap nonblank := by
  apply apply_trimLines fun ls ms => List.flatMap_append
  intro ms h
  rw [List.flatMap_eq_nil_iff]
  intro l hl
  rw [h l hl]
  rfl

@[simp]
theorem nonblank_dropWhile (l : List Char) : nonblank (l.dropWhile isBlank) = nonblank l := by
  have hblank : AllBlank (l.takeWhile isBlank) := fun c hc => List.mem_takeWhile_imp hc
  rw [← nonblank_of_append hblank, List.takeWhile_append_dropWhile]

theorem allBlank_take {l : List Char} {width : Nat} (h : width ≤ indent l) : AllBlank (l.take width) := by
  intro c hc
  have hbefore : l.take width <+: l.takeWhile isBlank := by
    apply List.prefix_of_prefix_length_le (List.take_prefix width l) (List.takeWhile_prefix isBlank)
    rw [List.length_take]
    exact Nat.le_trans (Nat.min_le_left _ _) h
  exact List.mem_takeWhile_imp (hbefore.subset hc)

theorem indent_drop {l : List Char} {width : Nat} (h : width ≤ indent l)
    : indent (l.drop width) + width = indent l := by
  have hle : indent l ≤ l.length := (List.takeWhile_prefix isBlank).length_le
  unfold indent at h hle ⊢
  conv => rhs; rw [← List.take_append_drop width l, List.takeWhile_append_of_pos (allBlank_take h)]
  rw [List.length_append, List.length_take]
  omega

theorem nonblank_drop_marginWidth {ls : List (List Char)} {l : List Char} (hl : l ∈ ls)
    : nonblank (l.drop (marginWidth ls)) = nonblank l := by
  by_cases htext : AllBlank l
  . have hdrop : AllBlank (l.drop (marginWidth ls)) := by
      intro c hc
      exact htext c (List.mem_of_mem_drop hc)
    rw [nonblank_eq_nil_iff.mpr htext, nonblank_eq_nil_iff.mpr hdrop]
  . have htake := allBlank_take (marginWidth_le_indent hl htext)
    rw [← nonblank_of_append htake, List.take_append_drop]

@[simp]
theorem nonblank_unlines (ls : List (List Char)) : nonblank (unlines ls) = ls.flatMap nonblank := by
  unfold unlines
  induction ls with
  | nil => rfl
  | cons l ls ih =>
    cases ls with
    | nil => simp
    | cons m ls =>
      have hfeed : nonblank ['\n'] = [] := by decide
      rw [List.intercalate_cons_cons, nonblank_append, nonblank_append, hfeed, List.append_nil, ih]
      rfl

theorem flatMap_nonblank_alignLines (ls : List (List Char))
    : (alignLines ls).flatMap nonblank = ls.flatMap nonblank := by
  cases ls with
  | nil => rfl
  | cons l ls =>
    simp only [alignLines_cons, dedent_eq_map, List.flatMap_cons, nonblank_dropWhile, List.flatMap_map]
    congr 1
    apply List.flatMap_congr
    intro m hm
    exact nonblank_drop_marginWidth hm

theorem nonblank_clean (cs : List Char) : nonblank (clean cs) = nonblank cs := by
  unfold clean
  rw [nonblank_unlines, flatMap_nonblank_trimLines, flatMap_nonblank_alignLines, ← nonblank_unlines,
    unlines_lines, nonblank_expandTabs]

theorem lines_clean (cs : List Char)
    : clean cs = [] ∧ trimLines (alignLines (lines (expandTabs cs))) = [] ∨
        lines (clean cs) = trimLines (alignLines (lines (expandTabs cs))) := by
  cases h : trimLines (alignLines (lines (expandTabs cs))) with
  | nil =>
    left
    unfold clean
    rw [h]
    exact ⟨rfl, rfl⟩
  | cons l ls =>
    right
    rw [← h]
    unfold clean
    apply lines_unlines
    . rw [h]
      simp
    . intro l hl
      rcases isSuffix_of_mem_alignLines (trimLines_subset _ hl) with ⟨m, hm, hsuffix⟩
      intro hmem
      apply sep_not_mem_of_mem_pieces hm
      apply hsuffix.subset hmem

theorem textLines_lines_clean (cs : List Char)
    : textLines (lines (clean cs)) = textLines (alignLines (lines (expandTabs cs))) := by
  cases lines_clean cs with
  | inl h =>
    rw [← textLines_trimLines (alignLines _), h.1, h.2]
    rfl
  | inr h => rw [h, textLines_trimLines]

theorem textLines_alignLines (l : List Char) (ls : List (List Char))
    : textLines (alignLines (l :: ls))
        =
      (textLines [l]).map (·.dropWhile isBlank) ++ (textLines ls).map (·.drop (marginWidth ls))
      := by
  have hfirst : textLines [l.dropWhile isBlank] = (textLines [l]).map (·.dropWhile isBlank) := by
    rw [← textLines_map]
    . rfl
    . simp
  have hlater : textLines (ls.map (·.drop (marginWidth ls)))
      = (textLines ls).map (·.drop (marginWidth ls)) := by
    apply textLines_map
    intro m hm
    exact nonblank_drop_marginWidth hm
  rw [alignLines_cons, dedent_eq_map, ← hfirst, ← hlater, ← textLines_append, List.singleton_append]

theorem trimmed_clean (cs : List Char)
    : clean cs = [] ∨ (lines (clean cs)).head? ≠ some [] ∧ (lines (clean cs)).getLast? ≠ some [] := by
  cases lines_clean cs with
  | inl h => exact .inl h.1
  | inr h =>
    right
    rw [h]
    refine ⟨?_, getLast?_trimLines_ne _⟩
    rw [head?_trimLines]
    intro hfind
    have := List.find?_some hfind
    contradiction

theorem head?_lines_clean {cs first : List Char} (hfirst : (lines cs).head? = some first)
    (htext : ¬AllBlank first)
    : (lines (clean cs)).head? = some ((expandTabs first).dropWhile isBlank) := by
  have hne : (expandTabs first).dropWhile isBlank ≠ [] := by
    rw [Ne, List.dropWhile_eq_nil_iff]
    rw [← allBlank_expandTabs_iff] at htext
    exact htext
  have hhead : (trimLines (alignLines (lines (expandTabs cs)))).head?
      = some ((expandTabs first).dropWhile isBlank) := by
    rcases List.head?_eq_some_iff.mp hfirst with ⟨later, hlines⟩
    rw [head?_trimLines, lines_expandTabs, hlines, List.map_cons, alignLines_cons,
      List.find?_cons_of_pos (by simp [hne])]
  cases lines_clean cs with
  | inl h =>
    rw [h.2] at hhead
    contradiction
  | inr h => rw [h, hhead]

theorem textLines_map_expandTabs (ls : List (List Char))
    : textLines (ls.map expandTabs) = (textLines ls).map expandTabs := by
  apply textLines_map
  simp

theorem textLines_clean {cs first : List Char} {later : List (List Char)}
    (hlines : lines cs = first :: later)
    : textLines (lines (clean cs))
        =
      (textLines [first]).map (fun l => (expandTabs l).dropWhile isBlank)
        ++ (textLines later).map (fun l => (expandTabs l).drop (marginWidth (later.map expandTabs)))
      := by
  have hfirst := textLines_map_expandTabs [first]
  have hlater := textLines_map_expandTabs later
  rw [List.map_singleton] at hfirst
  rw [textLines_lines_clean, lines_expandTabs, hlines, List.map_cons, textLines_alignLines, hfirst, hlater,
    List.map_map, List.map_map]
  rfl

theorem indent_drop_marginWidth {ls : List (List Char)} {l : List Char} (h : l ∈ textLines ls)
    : indent (l.drop (marginWidth ls)) + marginWidth ls = indent l := by
  rw [mem_textLines_iff] at h
  apply indent_drop
  apply marginWidth_le_indent h.1 h.2

theorem exists_indent_drop_marginWidth_eq_zero {ls : List (List Char)} (h : textLines ls ≠ [])
    : ∃ l ∈ textLines ls, indent (l.drop (marginWidth ls)) = 0 := by
  rcases List.exists_mem_of_ne_nil _ h with ⟨m, hm⟩
  rw [mem_textLines_iff] at hm
  rcases exists_indent_eq_marginWidth ⟨m, hm⟩ with ⟨l, hl, htext, hindent⟩
  have hmem := mem_textLines_iff.mpr ⟨hl, htext⟩
  have := indent_drop_marginWidth hmem
  exact ⟨l, hmem, by omega⟩

/--
What cleaning a docstring does. The lines of text after the first lose the same number of characters each,
which is as far as the least indented of them goes in.
-/
structure Cleaned (width : Nat) (cs out : List Char) : Prop where
  nonblank_eq : nonblank out = nonblank cs
  tab_not_mem : '\t' ∉ out
  trimmed : out = [] ∨ (lines out).head? ≠ some [] ∧ (lines out).getLast? ≠ some []
  first_line : ∀ first, (lines cs).head? = some first → ¬AllBlank first →
    (lines out).head? = some ((expandTabs first).dropWhile isBlank)
  text_lines : textLines (lines out)
    = (textLines ((lines cs).take 1)).map (fun l => (expandTabs l).dropWhile isBlank)
      ++ (textLines (lines cs).tail).map (fun l => (expandTabs l).drop width)
  indent_kept : ∀ l ∈ textLines (lines cs).tail,
    indent ((expandTabs l).drop width) + width = indent (expandTabs l)
  least_indent : textLines (lines cs).tail ≠ [] →
    ∃ l ∈ textLines (lines cs).tail, indent ((expandTabs l).drop width) = 0

/--
Cleaning changes white space only, and takes the margin away exactly.
-/
theorem clean_keeps_text (cs : List Char) : ∃ width, Cleaned width cs (clean cs) := by
  rcases List.exists_cons_of_ne_nil (pieces_ne_nil '\n' cs) with ⟨first, later, hlines⟩
  have hlines : lines cs = first :: later := hlines
  have hexpand := textLines_map_expandTabs later
  refine ⟨marginWidth (later.map expandTabs), nonblank_clean cs, tab_not_mem_clean cs, trimmed_clean cs,
    fun _ => head?_lines_clean, ?_, ?_, ?_⟩
  . rw [textLines_clean hlines, hlines]
    rfl
  . rw [hlines, List.tail_cons]
    intro l hl
    apply indent_drop_marginWidth
    rw [hexpand]
    exact List.mem_map_of_mem hl
  . rw [hlines, List.tail_cons]
    intro hne
    rw [Ne, ← List.map_eq_nil_iff, ← hexpand] at hne
    rcases exists_indent_drop_marginWidth_eq_zero hne with ⟨m, hm, hindent⟩
    rw [hexpand, List.mem_map] at hm
    rcases hm with ⟨l, hl, rfl⟩
    exact ⟨l, hl, hindent⟩

theorem summary_of_text_opening {cs : List Char} (h : ¬AllBlank (cs.takeWhile (· != '\n')))
    : summary cs = firstLine ((expandTabs (cs.takeWhile (· != '\n'))).dropWhile isBlank) := by
  rcases List.head?_eq_some_iff.mp (head?_lines cs) with ⟨later, hlines⟩
  have hexpand : lines (expandTabs cs)
      = expandTabs (cs.takeWhile (· != '\n')) :: later.map expandTabs := by
    rw [lines_expandTabs, hlines, List.map_cons]
  apply summary_of_text_first hexpand
  rw [allBlank_expandTabs_iff]
  exact h

/--
A summary that stands on the first line does not depend on what comes behind that line.
-/
theorem summary_of_opening {cs ds : List Char} (htext : ¬AllBlank (cs.takeWhile (· != '\n')))
    (hsame : ds.takeWhile (· != '\n') = cs.takeWhile (· != '\n'))
    : summary cs = firstLine ((expandTabs (cs.takeWhile (· != '\n'))).dropWhile isBlank) ∧
        summary ds = summary cs := by
  have hsummary := summary_of_text_opening htext
  refine ⟨hsummary, ?_⟩
  rw [hsummary, ← hsame]
  apply summary_of_text_opening
  rw [hsame]
  exact htext

/--
A line boundary within the first line. That line is the whole of one text; in the other, lines that are
indented less come behind it.
-/
theorem summary_of_opening_bounded
    : ¬AllBlank ("\t A\tb\x1cc".toList.takeWhile (· != '\n')) ∧
        "\t A\tb\x1cc\n\u2028\n \x0c\n  d\n".toList.takeWhile (· != '\n')
          = "\t A\tb\x1cc".toList.takeWhile (· != '\n') ∧
        summary "\t A\tb\x1cc".toList = "A      b".toList ∧
        summary "\t A\tb\x1cc\n\u2028\n \x0c\n  d\n".toList = summary "\t A\tb\x1cc".toList := by
  have htext : ¬AllBlank ("\t A\tb\x1cc".toList.takeWhile (· != '\n')) := by decide
  have hsame : "\t A\tb\x1cc\n\u2028\n \x0c\n  d\n".toList.takeWhile (· != '\n')
      = "\t A\tb\x1cc".toList.takeWhile (· != '\n') := by decide
  rcases summary_of_opening htext hsame with ⟨hsummary, hdocs⟩
  refine ⟨htext, hsame, ?_, hdocs⟩
  rw [hsummary]
  decide

end CallFlow.Text
