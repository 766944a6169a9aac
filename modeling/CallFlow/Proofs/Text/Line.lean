import CallFlow.Text.Line

/-!
This module contains what the pieces of a text are made of, how they change with characters at its end
(`pieces_append`), and that lines are put together and taken apart without loss.
-/

namespace CallFlow.Text

theorem mem_of_mem_pieces {sep : Char} {cs l : List Char} {c : Char} (hl : l ∈ pieces sep cs)
    (hc : c ∈ l) : c ∈ cs := by
  induction cs generalizing l with
  | nil => simp_all [pieces]
  | cons d cs ih =>
    unfold pieces at hl
    split at hl
    . rw [List.mem_cons] at hl
      cases hl with
      | inl heq =>
        subst heq
        contradiction
      | inr hl =>
        apply List.mem_cons_of_mem
        apply ih hl hc
    . split at hl
      . next hnil => exact absurd hnil (pieces_ne_nil sep cs)
      . next m ms hms =>
        rw [hms] at ih
        rw [List.mem_cons] at hl
        cases hl with
        | inl heq =>
          subst heq
          rw [List.mem_cons] at hc ⊢
          cases hc with
          | inl h => exact .inl h
          | inr h => exact .inr (ih List.mem_cons_self h)
        | inr hl =>
          apply List.mem_cons_of_mem
          apply ih (List.mem_cons_of_mem m hl) hc

theorem pieces_eq_splitOn (sep : Char) (cs : List Char) : pieces sep cs = cs.splitOn sep := by
  induction cs with
  | nil => rfl
  | cons c cs ih =>
    unfold pieces
    rw [List.splitOn_cons_eq_if_modifyHead, ih]
    cases h : cs.splitOn sep with
    | nil => exact absurd h (List.splitOn_ne_nil sep cs)
    | cons l ls => simp

theorem pieces_of_not_mem {sep : Char} {cs : List Char} (h : sep ∉ cs) : pieces sep cs = [cs] := by
  rw [pieces_eq_splitOn, List.splitOn_eq_singleton h]

/--
Characters at the end of a text go to its last piece.
-/
theorem pieces_append {sep : Char} {cs ds last : List Char} {before : List (List Char)}
    (h : pieces sep cs = before ++ [last]) (hds : sep ∉ ds)
    : pieces sep (cs ++ ds) = before ++ [last ++ ds] := by
  induction cs generalizing before last with
  | nil =>
    have hnil : [[]] = before ++ [last] := h
    rw [List.singleton_eq_append_iff] at hnil
    rcases hnil with ⟨rfl, hlast⟩ | ⟨_, hlast⟩
    . injection hlast with hlast
      subst hlast
      apply pieces_of_not_mem hds
    . contradiction
  | cons c cs ih =>
    rw [List.cons_append]
    unfold pieces at h ⊢
    split
    . next hc =>
      rw [if_pos hc] at h
      cases before with
      | nil =>
        injection h with _ h
        exact absurd h (pieces_ne_nil sep cs)
      | cons l before =>
        injection h with hl h
        rw [ih h, ← hl]
        rfl
    . next hc =>
      rw [if_neg hc] at h
      cases hcs : pieces sep cs with
      | nil => exact absurd hcs (pieces_ne_nil sep cs)
      | cons l ls =>
        rw [hcs] at h ih
        cases before with
        | nil =>
          injection h with hl hls
          subst hls
          have hrest : pieces sep (cs ++ ds) = [] ++ [l ++ ds] := ih rfl
          rw [hrest, ← hl]
          rfl
        | cons m before =>
          injection h with hl hls
          subst hls
          have hrest : pieces sep (cs ++ ds) = (l :: before) ++ [last ++ ds] := ih rfl
          rw [hrest, ← hl]
          rfl

theorem sep_not_mem_of_mem_pieces {sep : Char} {cs l : List Char} (h : l ∈ pieces sep cs)
    : sep ∉ l := by
  induction cs generalizing l with
  | nil => simp_all [pieces]
  | cons c cs ih =>
    unfold pieces at h
    split at h
    . rw [List.mem_cons] at h
      cases h with
      | inl heq => simp [heq]
      | inr h => exact ih h
    . next hc =>
      split at h
      . next hnil => exact absurd hnil (pieces_ne_nil sep cs)
      . next m ms hms =>
        rw [hms] at ih
        rw [List.mem_cons] at h
        cases h with
        | inl heq =>
          rw [heq, List.mem_cons, not_or]
          exact ⟨Ne.symm hc, ih List.mem_cons_self⟩
        | inr h => exact ih (List.mem_cons_of_mem m h)

theorem unlines_lines (cs : List Char) : unlines (lines cs) = cs := by
  unfold unlines lines
  rw [pieces_eq_splitOn, List.intercalate_splitOn]

theorem lines_unlines {ls : List (List Char)} (hne : ls ≠ []) (h : ∀ l ∈ ls, '\n' ∉ l)
    : lines (unlines ls) = ls := by
  unfold unlines lines
  rw [pieces_eq_splitOn, List.splitOn_intercalate '\n' h hne]

theorem head?_lines (cs : List Char) : (lines cs).head? = some (cs.takeWhile (· != '\n')) := by
  unfold lines
  induction cs with
  | nil => rfl
  | cons c cs ih =>
    unfold pieces
    split
    . next hc => simp [hc]
    . next hc =>
      split
      . next hnil => exact absurd hnil (pieces_ne_nil '\n' cs)
      . next l ls hls =>
        rw [hls, List.head?_cons] at ih
        injection ih with ih
        simp [hc, ih]

end CallFlow.Text
