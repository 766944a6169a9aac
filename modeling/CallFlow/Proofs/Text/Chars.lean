import Mathlib.Data.List.TakeWhile
import CallFlow.Proofs.Text.Line
import CallFlow.Text.Indent

/-!
This module contains which characters texts are made of. Names are `PlainName`s, and a summary keeps
within one line whatever the text is that it is taken from (`oneLine_summary`).
-/

namespace CallFlow.Text

/--
Neither white space nor one of the characters that stand around names in a diagram.
-/
def isPlain (c : Char) : Bool := !isBlank c && c != '-' && c != '<' && c != '>' && c != ':'

structure PlainName (s : String) : Prop where
  nonempty : s ≠ ""
  plain : ∀ c ∈ s.toList, isPlain c = true

instance (s : String) : Decidable (PlainName s) :=
  decidable_of_iff (s ≠ "" ∧ s.toList.all isPlain = true)
    ⟨fun h => ⟨h.1, List.all_eq_true.mp h.2⟩, fun h => ⟨h.nonempty, List.all_eq_true.mpr h.plain⟩⟩

def OneLine (cs : List Char) : Prop := ∀ c ∈ cs, isLineBoundary c = false ∧ c ≠ '\t'

def NewlineFree (s : String) : Prop := '\n' ∉ s.toList

instance (s : String) : Decidable (NewlineFree s) := inferInstanceAs (Decidable ('\n' ∉ s.toList))

theorem PlainName.newlineFree {s : String} (h : PlainName s) : NewlineFree s := by
  intro hmem
  have : isPlain '\n' = false := by decide
  rw [h.plain '\n' hmem] at this
  contradiction

theorem OneLine.newline_not_mem {cs : List Char} (h : OneLine cs) : '\n' ∉ cs := by
  intro hmem
  have : isLineBoundary '\n' = true := by decide
  rw [(h '\n' hmem).1] at this
  contradiction

/--
Where two texts go on behind a first character of some kind, they agree before and behind it.
-/
theorem append_cons_inj {P : Char → Prop} {xs xs' ys ys' : List Char} {a a' : Char}
    (hxs : ∀ x ∈ xs, P x) (hxs' : ∀ x ∈ xs', P x) (ha : ¬P a) (ha' : ¬P a')
    (h : xs ++ a :: ys = xs' ++ a' :: ys') : xs = xs' ∧ a = a' ∧ ys = ys' := by
  induction xs generalizing xs' with
  | nil =>
    cases xs' with
    | nil =>
      injection h with h1 h2
      exact ⟨rfl, h1, h2⟩
    | cons x' xs' =>
      injection h with h1 h2
      subst h1
      exact absurd (hxs' a List.mem_cons_self) ha
  | cons x xs ih =>
    rw [List.forall_mem_cons] at hxs
    cases xs' with
    | nil =>
      injection h with h1 h2
      subst h1
      exact absurd hxs.1 ha'
    | cons x' xs' =>
      rw [List.forall_mem_cons] at hxs'
      injection h with h1 h2
      rcases ih hxs.2 hxs'.2 h2 with ⟨rfl, hrest⟩
      subst h1
      exact ⟨rfl, hrest⟩

theorem mem_intercalate {α : Type} {sep : List α} {ls : List (List α)} {a : α}
    (h : a ∈ sep.intercalate ls) : a ∈ sep ∨ ∃ l ∈ ls, a ∈ l := by
  induction ls with
  | nil => simp at h
  | cons l ls ih =>
    cases ls with
    | nil =>
      right
      exact ⟨l, List.mem_cons_self, by simpa using h⟩
    | cons l' ls =>
      rw [List.intercalate_cons_cons, List.mem_append, List.mem_append] at h
      rcases h with (h | h) | h
      . exact .inr ⟨l, List.mem_cons_self, h⟩
      . exact .inl h
      . cases ih h with
        | inl hsep => exact .inl hsep
        | inr hmem =>
          rcases hmem with ⟨m, hm, ha⟩
          exact .inr ⟨m, List.mem_cons_of_mem l hm, ha⟩

theorem mem_expandTabs {cs : List Char} {c : Char} (h : c ∈ expandTabs cs)
    : c = ' ' ∨ c ∈ cs ∧ c ≠ '\t' := by
  unfold expandTabs at h
  -- The column grows on the way.
  generalize 0 = column at h
  induction cs generalizing column with
  | nil => contradiction
  | cons d cs ih =>
    have hrest : ∀ column, c ∈ expandTabsFrom column cs → c = ' ' ∨ c ∈ d :: cs ∧ c ≠ '\t' := by
      intro column h
      exact (ih column h).imp_right (And.imp_left (List.mem_cons_of_mem d))
    have hkept : d ≠ '\t' → ∀ column, c ∈ d :: expandTabsFrom column cs →
        c = ' ' ∨ c ∈ d :: cs ∧ c ≠ '\t' := by
      intro hd column h
      rw [List.mem_cons] at h
      cases h with
      | inl h =>
        subst h
        exact .inr ⟨List.mem_cons_self, hd⟩
      | inr h => exact hrest column h
    unfold expandTabsFrom at h
    split at h
    . rw [List.mem_append, List.mem_replicate] at h
      cases h with
      | inl h => exact .inl h.2
      | inr h => exact hrest _ h
    . next hd =>
      split at h
      . exact hkept hd _ h
      . exact hkept hd _ h

theorem tab_not_mem_expandTabs (cs : List Char) : '\t' ∉ expandTabs cs := by
  intro h
  rcases mem_expandTabs h with hblank | htab
  . contradiction
  . exact htab.2 rfl

theorem isSuffix_of_mem_alignLines {ls : List (List Char)} {l : List Char} (h : l ∈ alignLines ls)
    : ∃ m ∈ ls, l <:+ m := by
  cases ls with
  | nil => contradiction
  | cons m ms =>
    unfold alignLines dedent at h
    rw [List.mem_cons] at h
    cases h with
    | inl heq =>
      subst heq
      exact ⟨m, List.mem_cons_self, List.dropWhile_suffix _⟩
    | inr h =>
      split at h
      . exact ⟨l, List.mem_cons_of_mem m h, List.suffix_refl l⟩
      . rw [List.mem_map] at h
        rcases h with ⟨m', hm', rfl⟩
        exact ⟨m', List.mem_cons_of_mem m hm', List.drop_suffix _ _⟩

theorem trimLines_subset (ls : List (List Char)) : trimLines ls ⊆ ls := by
  intro l h
  unfold trimLines at h
  have h := (List.dropWhile_suffix _).subset h
  rw [List.mem_reverse] at h
  have h := (List.dropWhile_suffix _).subset h
  rw [List.mem_reverse] at h
  exact h

/--
Cleaning a text adds no characters but line feeds and the blanks for tabs.
-/
theorem mem_clean {cs : List Char} {c : Char} (h : c ∈ clean cs) : c = '\n' ∨ c ∈ expandTabs cs := by
  unfold clean unlines at h
  cases mem_intercalate h with
  | inl hsep =>
    left
    rw [List.mem_singleton] at hsep
    exact hsep
  | inr hmem =>
    right
    rcases hmem with ⟨l, hl, hc⟩
    rcases isSuffix_of_mem_alignLines (trimLines_subset _ hl) with ⟨m, hm, hsuffix⟩
    apply mem_of_mem_pieces hm
    apply hsuffix.subset hc

theorem tab_not_mem_clean (cs : List Char) : '\t' ∉ clean cs := by
  intro h
  cases mem_clean h with
  | inl heq => contradiction
  | inr htab => exact tab_not_mem_expandTabs cs htab

theorem oneLine_summary (cs : List Char) : OneLine (summary cs) := by
  intro c hc
  unfold summary firstLine at hc
  have hboundary : isLineBoundary c = false := by
    have := List.mem_takeWhile_imp hc
    simpa using this
  refine ⟨hboundary, ?_⟩
  rintro rfl
  apply tab_not_mem_clean cs
  exact (List.takeWhile_prefix _).subset hc

end CallFlow.Text
