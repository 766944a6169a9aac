import CallFlow.Functions.Extract
import CallFlow.Proofs.Functions.Table

/-!
This module contains what taking the steps of a tree does to a table: which names come into it, and
what becomes of the record under one name. Steps that name no caller before its definition do the same
to the records that are in the table already as to none (`foldl_apply_eq_foldl_insert`).
-/

namespace CallFlow.Functions

open CallFlow.Syntax

namespace Step

/--
The name that a step defines.
-/
def defined? : Step → Option String
  | define r => some r.name
  | call _ _ => none

/--
The function that a step calls from the function of a name.
-/
def calleeFrom? (name : String) : Step → Option String
  | define _ => none
  | call caller callee => if caller = name then some callee else none

/--
What a step does to the record under a name.
-/
def update (name : String) (r? : Option Record) : Step → Option Record
  | define r => if r.name = name then some r else r?
  | call caller callee => if caller = name then r?.map (·.pushCall callee) else r?

theorem records_apply_call (t : Table) (caller callee : String)
    : (apply t (call caller callee)).records = pushCallTo caller callee t.records := by
  by_cases h : (t.get? caller).isSome
  . simp only [apply, Table.pushCall, h, ↓reduceIte]
  . simp only [apply, Table.pushCall, h, Bool.false_eq_true, ↓reduceIte]
    rw [Table.isSome_get?_iff] at h
    rw [pushCallTo_of_not_mem _ _ _ h]

theorem names_apply_call (t : Table) (caller callee : String)
    : (apply t (call caller callee)).names = t.names := by
  unfold Table.names
  rw [records_apply_call]
  apply names_pushCallTo

theorem get?_apply (t : Table) (s : Step) (name : String)
    : (apply t s).get? name = update name (t.get? name) s := by
  cases s with
  | define r => apply Table.get?_insert
  | call caller callee =>
    unfold Table.get?
    rw [records_apply_call]
    apply find?_pushCallTo

theorem names_foldl_apply (t : Table) (ss : List Step)
    : (ss.foldl apply t).names = (t.names ++ ss.filterMap defined?).eraseDups := by
  induction ss using List.reverseRecOn with
  | nil =>
    simp only [List.foldl_nil, List.filterMap_nil, List.append_nil]
    rw [eraseDups_of_nodup]
    exact t.nodup
  | append_singleton ss s ih =>
    rw [List.foldl_append, List.filterMap_append, ← List.append_assoc]
    simp only [List.foldl_cons, List.foldl_nil]
    cases s with
    | define r =>
      simp only [List.filterMap_cons, defined?, List.filterMap_nil]
      rw [eraseDups_concat, apply, Table.names_insert, ih]
      simp only [List.mem_eraseDups]
    | call caller callee =>
      rw [names_apply_call, ih]
      simp only [List.filterMap_cons, defined?, List.filterMap_nil, List.append_nil]

theorem get?_foldl_apply (t : Table) (ss : List Step) (name : String)
    : (ss.foldl apply t).get? name = ss.foldl (update name) (t.get? name) := by
  induction ss generalizing t with
  | nil => rfl
  | cons s ss ih => rw [List.foldl_cons, List.foldl_cons, ih, get?_apply]

/--
Without a further definition of a name, its record only gets the calls from its function.
-/
theorem foldl_update_of_not_defined (ss : List Step) (name : String) (r : Record)
    (h : ∀ s ∈ ss, s.defined? ≠ some name)
    : ss.foldl (update name) (some r)
        =
      some { r with calls := r.calls ++ ss.filterMap (calleeFrom? name) }
      := by
  induction ss generalizing r with
  | nil => simp
  | cons s ss ih =>
    rw [List.forall_mem_cons] at h
    rw [List.foldl_cons]
    cases s with
    | define r' =>
      have hname : r'.name ≠ name := by simpa [defined?] using h.1
      simp only [update, hname, ↓reduceIte, List.filterMap_cons, calleeFrom?]
      apply ih _ h.2
    | call caller callee =>
      by_cases hcaller : caller = name
      . simp only [update, hcaller, ↓reduceIte, Option.map_some, List.filterMap_cons, calleeFrom?]
        rw [ih _ h.2]
        simp [Record.pushCall]
      . simp only [update, hcaller, ↓reduceIte, List.filterMap_cons, calleeFrom?]
        apply ih _ h.2

/--
Each call comes from a function that is among some names or that is defined before the call.
-/
def CallersDefined (names : List String) : List Step → Prop
  | [] => True
  | define r :: ss => CallersDefined (r.name :: names) ss
  | call caller _ :: ss => caller ∈ names ∧ CallersDefined names ss

theorem callersDefined_mono {names names' : List String} (hsub : names ⊆ names') {ss : List Step}
    (h : CallersDefined names ss) : CallersDefined names' ss := by
  induction ss generalizing names names' with
  | nil => trivial
  | cons s ss ih =>
    cases s with
    | define r =>
      unfold CallersDefined at h ⊢
      apply ih _ h
      apply List.cons_subset_cons
      exact hsub
    | call caller callee =>
      unfold CallersDefined at h ⊢
      refine ⟨hsub h.1, ?_⟩
      apply ih hsub h.2

theorem callersDefined_append {names : List String} {ss ss' : List Step}
    (h : CallersDefined names ss) (h' : CallersDefined names ss')
    : CallersDefined names (ss ++ ss') := by
  induction ss generalizing names with
  | nil => exact h'
  | cons s ss ih =>
    cases s with
    | define r =>
      rw [List.cons_append]
      unfold CallersDefined at h ⊢
      apply ih h
      apply callersDefined_mono _ h'
      apply List.subset_cons_self
    | call caller callee =>
      rw [List.cons_append]
      unfold CallersDefined at h ⊢
      refine ⟨h.1, ?_⟩
      apply ih h.2 h'

theorem callersDefined_flatMap {α : Type} {names : List String} (l : List α) (f : α → List Step)
    (h : ∀ x ∈ l, CallersDefined names (f x)) : CallersDefined names (l.flatMap f) := by
  induction l with
  | nil => trivial
  | cons x l ih =>
    rw [List.forall_mem_cons] at h
    rw [List.flatMap_cons]
    apply callersDefined_append h.1
    apply ih h.2

theorem callersDefined_head {names : List String} {s : Step} {ss : List Step}
    (h : CallersDefined names (s :: ss)) : CallersDefined names [s] := by
  cases s with
  | define r => trivial
  | call caller callee => exact ⟨h.1, trivial⟩

/--
Behind a step the calls come from functions in the table that it leaves.
-/
theorem callersDefined_names_apply {t : Table} {s : Step} {ss : List Step}
    (h : CallersDefined t.names (s :: ss)) : CallersDefined (apply t s).names ss := by
  cases s with
  | define r =>
    unfold CallersDefined at h
    apply callersDefined_mono _ h
    intro name hname
    rw [apply, Table.mem_names_insert_iff]
    rw [List.mem_cons] at hname
    exact hname
  | call caller callee =>
    unfold CallersDefined at h
    rw [names_apply_call]
    exact h.2

/--
Inserting the records of a table into another one commutes with a step, as long as the step does not
call from a function that only the latter knows.
-/
theorem apply_foldl_insert (t u : Table) (s : Step) (h : CallersDefined u.names [s])
    : apply (u.records.foldl Table.insert t) s = (apply u s).records.foldl Table.insert t := by
  apply Table.ext_get?
  . rw [Table.names_foldl_insert_records]
    cases s with
    | define r =>
      unfold apply
      rw [Table.names_insert, Table.names_insert, Table.names_foldl_insert_records]
      by_cases hmem : r.name ∈ u.names
      . simp [hmem]
      . rw [if_neg hmem, ← List.append_assoc, eraseDups_concat]
        simp only [List.mem_eraseDups]
    | call caller callee =>
      rw [names_apply_call, names_apply_call, Table.names_foldl_insert_records]
  . intro name
    rw [get?_apply, Table.get?_foldl_insert_records, Table.get?_foldl_insert_records, get?_apply]
    cases s with
    | define r =>
      simp only [update]
      split <;> rfl
    | call caller callee =>
      simp only [update]
      split
      . next heq =>
        -- The record that gets the call is that of `u`, whatever `t` has under its name.
        have hsome : (u.get? caller).isSome := by
          rw [Table.isSome_get?_iff]
          exact h.1
        rw [Option.isSome_iff_exists] at hsome
        rcases hsome with ⟨r, hr⟩
        rw [← heq, hr]
        rfl
      . rfl

/--
Steps act on the records of a table just as on no records, if they call from functions only that they
have defined before.
-/
theorem foldl_apply_eq_foldl_insert (t u : Table) (ss : List Step)
    (h : CallersDefined u.names ss)
    : ss.foldl apply (u.records.foldl Table.insert t)
        =
      (ss.foldl apply u).records.foldl Table.insert t
      := by
  -- `u` holds what the steps so far have made of the empty table; its names are the callers to come.
  induction ss generalizing u with
  | nil => rfl
  | cons s ss ih =>
    rw [List.foldl_cons, List.foldl_cons, apply_foldl_insert]
    . apply ih
      exact callersDefined_names_apply h
    . exact callersDefined_head h

end Step

end CallFlow.Functions
