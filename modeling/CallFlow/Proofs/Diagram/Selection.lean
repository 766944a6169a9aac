import Mathlib.Data.List.Induction
import CallFlow.Diagram.Build
import CallFlow.Proofs.Functions.Table

/-!
This module contains which function of a table is the main one: the first of those with the most calls
(`selectMain_is_first_most`). Each step of the fold keeps the first such record of those read so far
(`FirstMost.exists_moreCalls`).
-/

namespace CallFlow.Diagram

open CallFlow.Functions

theorem eq_take_append_cons_drop {α : Type} {xs : List α} {i : Nat} {x : α} (h : xs[i]? = some x)
    : xs = xs.take i ++ x :: xs.drop (i + 1) := by
  rw [List.getElem?_eq_some_iff] at h
  rcases h with ⟨hi, rfl⟩
  rw [List.getElem_cons_drop, List.take_append_drop]

/--
The record at index `i` has more calls than each one before it, and no fewer than each one behind it.
-/
structure FirstMost (rs : List Record) (i : Nat) (r : Record) : Prop where
  getElem?_eq : rs[i]? = some r
  before : ∀ s ∈ rs.take i, s.callCount < r.callCount
  behind : ∀ s ∈ rs.drop (i + 1), s.callCount ≤ r.callCount

namespace FirstMost

variable {rs : List Record} {i : Nat} {r : Record}

theorem lt_length (h : FirstMost rs i r) : i < rs.length := by
  have := h.getElem?_eq
  rw [List.getElem?_eq_some_iff] at this
  exact this.1

theorem callCount_le (h : FirstMost rs i r) : ∀ s ∈ rs, s.callCount ≤ r.callCount := by
  intro s hs
  rw [eq_take_append_cons_drop h.getElem?_eq, List.mem_append, List.mem_cons] at hs
  rcases hs with hs | rfl | hs
  . have := h.before s hs
    omega
  . omega
  . apply h.behind s hs

theorem append_singleton_of_le (h : FirstMost rs i r) {s : Record} (hs : s.callCount ≤ r.callCount)
    : FirstMost (rs ++ [s]) i r := by
  have hi := h.lt_length
  constructor
  . rw [List.getElem?_append_left hi]
    exact h.getElem?_eq
  . rw [List.take_append_of_le_length (by omega)]
    exact h.before
  . rw [List.drop_append_of_le_length (by omega)]
    intro s' hs'
    rw [List.mem_append, List.mem_singleton] at hs'
    cases hs' with
    | inl hmem => apply h.behind s' hmem
    | inr heq =>
      rw [heq]
      exact hs

theorem append_singleton_of_lt (h : FirstMost rs i r) {s : Record} (hs : r.callCount < s.callCount)
    : FirstMost (rs ++ [s]) rs.length s := by
  constructor
  . simp
  . rw [List.take_left]
    intro s' hs'
    have := h.callCount_le s' hs'
    omega
  . simp

theorem singleton (r : Record) : FirstMost [r] 0 r := by
  constructor <;> simp

theorem not_lt (h : FirstMost rs i r) {j : Nat} {s : Record} (h' : FirstMost rs j s) : ¬i < j := by
  intro hlt
  have hr : r ∈ rs.take j := by
    apply List.mem_of_getElem? (i := i)
    rw [List.getElem?_take_of_lt hlt]
    exact h.getElem?_eq
  have hs : s ∈ rs.drop (i + 1) := by
    apply List.mem_of_getElem? (i := j - (i + 1))
    rw [List.getElem?_drop, Nat.add_sub_cancel' hlt]
    exact h'.getElem?_eq
  have := h'.before r hr
  have := h.behind s hs
  omega

theorem unique (h : FirstMost rs i r) {j : Nat} {s : Record} (h' : FirstMost rs j s)
    : j = i ∧ s = r := by
  have hij := h.not_lt h'
  have hji := h'.not_lt h
  have : j = i := by omega
  subst this
  have := h'.getElem?_eq
  rw [h.getElem?_eq] at this
  injection this with this
  exact ⟨rfl, this.symm⟩

theorem exists_moreCalls (h : FirstMost rs i r) (s : Record)
    : ∃ j main, moreCalls (some r) s = some main ∧ FirstMost (rs ++ [s]) j main := by
  unfold moreCalls
  dsimp only
  split
  . next hlt => exact ⟨rs.length, s, rfl, h.append_singleton_of_lt hlt⟩
  . next hle => exact ⟨i, r, rfl, h.append_singleton_of_le (by omega)⟩

end FirstMost

theorem exists_foldl_moreCalls_firstMost (rs : List Record) (h : rs ≠ [])
    : ∃ i main, rs.foldl moreCalls none = some main ∧ FirstMost rs i main := by
  -- From the end: the invariant is about the records read so far, and one more is read behind them.
  induction rs using List.reverseRecOn with
  | nil => contradiction
  | append_singleton rs s ih =>
    rw [List.foldl_append]
    by_cases hrs : rs = []
    . subst hrs
      exact ⟨0, s, rfl, FirstMost.singleton s⟩
    . rcases ih hrs with ⟨i, best, hbest, hfirst⟩
      rw [hbest]
      apply hfirst.exists_moreCalls

theorem FirstMost.selectMain_eq {t : Table} {i : Nat} {r : Record} (h : FirstMost t.records i r)
    : selectMain t = .ok r := by
  have hne : t.records ≠ [] := by
    intro hnil
    have := h.lt_length
    simp [hnil] at this
  rcases exists_foldl_moreCalls_firstMost t.records hne with ⟨j, main, hmain, hfirst⟩
  unfold selectMain
  rw [hmain, (h.unique hfirst).2]

theorem selectMain_of_isEmpty {t : Table} (h : t.isEmpty = true)
    : selectMain t = .error .noMainFunction := by
  unfold Table.isEmpty at h
  rw [List.isEmpty_iff] at h
  unfold selectMain
  rw [h]
  rfl

theorem exists_firstMost_selectMain (t : Table) (h : t.isEmpty = false)
    : ∃ i main, selectMain t = .ok main ∧ FirstMost t.records i main := by
  have hne : t.records ≠ [] := by
    intro hnil
    simp [Table.isEmpty, hnil] at h
  rcases exists_foldl_moreCalls_firstMost t.records hne with ⟨i, main, _, hfirst⟩
  exact ⟨i, main, hfirst.selectMain_eq, hfirst⟩

theorem exists_selectMain (t : Table) (h : t.isEmpty = false)
    : ∃ main ∈ t.records, selectMain t = .ok main := by
  rcases exists_firstMost_selectMain t h with ⟨i, main, hmain, hfirst⟩
  exact ⟨main, List.mem_of_getElem? hfirst.getElem?_eq, hmain⟩

theorem selectMain_eq_error_iff (t : Table)
    : selectMain t = .error .noMainFunction ↔ t.isEmpty = true := by
  constructor
  . intro h
    cases hempty : t.isEmpty with
    | true => rfl
    | false =>
      rcases exists_selectMain t hempty with ⟨main, _, hmain⟩
      rw [hmain] at h
      contradiction
  . apply selectMain_of_isEmpty

theorem exists_firstMost_of_selectMain {t : Table} {main : Record} (h : selectMain t = .ok main)
    : ∃ i, FirstMost t.records i main := by
  cases hempty : t.isEmpty with
  | true =>
    rw [selectMain_of_isEmpty hempty] at h
    contradiction
  | false =>
    rcases exists_firstMost_selectMain t hempty with ⟨i, main', heq, hfirst⟩
    rw [heq] at h
    injection h with h
    rw [← h]
    exact ⟨i, hfirst⟩

theorem mem_records_of_selectMain {t : Table} {main : Record} (h : selectMain t = .ok main)
    : main ∈ t.records := by
  rcases exists_firstMost_of_selectMain h with ⟨i, hfirst⟩
  apply List.mem_of_getElem? hfirst.getElem?_eq

theorem name_eq_of_names_eq {t u : Table} (h : u.names = t.names) {i : Nat} {r s : Record}
    (hr : t.records[i]? = some r) (hs : u.records[i]? = some s) : s.name = r.name := by
  have hname : u.names[i]? = t.names[i]? := by rw [h]
  unfold Table.names at hname
  rw [List.getElem?_map, List.getElem?_map, hr, hs] at hname
  injection hname

/--
The main function is the one record that has more calls than all before it and no fewer than all behind
it. A table with the same names has the same main function if the record in its place, with whatever calls
it has there, is such a one again.
-/
theorem selectMain_is_first_most (t : Table)
    : (selectMain t = .error .noMainFunction ↔ t.isEmpty = true) ∧
        (t.isEmpty = false →
          ∃ i main,
            selectMain t = .ok main ∧
            FirstMost t.records i main ∧
            ∀ j s, FirstMost t.records j s → j = i ∧ s = main) ∧
        ∀ (u : Table) (i : Nat) (main s : Record),
          FirstMost t.records i main →
          u.names = t.names →
          FirstMost u.records i s →
          (selectMain u).map Record.name = (selectMain t).map Record.name := by
  refine ⟨selectMain_eq_error_iff t, ?_, ?_⟩
  . intro h
    rcases exists_firstMost_selectMain t h with ⟨i, main, hmain, hfirst⟩
    refine ⟨i, main, hmain, hfirst, ?_⟩
    intro j s h
    apply hfirst.unique h
  . intro u i main s ht hnames hu
    rw [ht.selectMain_eq, hu.selectMain_eq]
    have := name_eq_of_names_eq hnames ht.getElem?_eq hu.getElem?_eq
    simp [Except.map, this]

/--
Of the two functions with two calls the first is the main one.
-/
def tied : Table := .ofList [
  { name := "load", calls := ["open_file"] },
  { name := "run", calls := ["load", "missing"] },
  { name := "stop", calls := ["load", "load"] }
]

/--
The main function has lost a call, but so have the others.
-/
def tiedAgain : Table := .ofList [
  { name := "load", summary := "Reads." },
  { name := "run", parameters := [{ name := "n" }], calls := ["stop"] },
  { name := "stop", calls := ["stop"] }
]

theorem selectMain_is_first_most_tied
    : tied.isEmpty = false ∧
        FirstMost tied.records 1 { name := "run", calls := ["load", "missing"] } ∧
        (selectMain tied).map Record.name = .ok "run" ∧
        tiedAgain.names = tied.names ∧
        FirstMost tiedAgain.records 1
          { name := "run", parameters := [{ name := "n" }], calls := ["stop"] } ∧
        (selectMain tiedAgain).map Record.name = (selectMain tied).map Record.name := by
  have hempty : tied.isEmpty = false := by decide
  have hnames : tiedAgain.names = tied.names := by decide
  have htied : FirstMost tied.records 1 { name := "run", calls := ["load", "missing"] } := by
    constructor <;> decide
  have hagain : FirstMost tiedAgain.records 1
      { name := "run", parameters := [{ name := "n" }], calls := ["stop"] } := by
    constructor <;> decide
  rcases selectMain_is_first_most tied with ⟨_, hexists, hstays⟩
  rcases hexists hempty with ⟨i, main, hmain, _, hunique⟩
  have hrun := (hunique 1 _ htied).2
  refine ⟨hempty, htied, ?_, hnames, hagain, hstays tiedAgain 1 _ _ htied hnames hagain⟩
  rw [hmain, ← hrun]
  rfl

end CallFlow.Diagram
