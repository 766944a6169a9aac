import Std.Data.HashMap
import CallFlow.Proofs.Functions.Steps

/-!
This module contains what a table is after any sequence of steps, where to define a function is to insert
its record, and what each step answers (`follows_performAll`). An `Index` keeps the names and the records
of a table apart, and stays in step with it (`inStep_perform`).
-/

namespace CallFlow.Functions

namespace Step

/--
The function whose record a step is about.
-/
def target : Step → String
  | define r => r.name
  | call caller _ => caller

/--
What a step gives back.
-/
inductive Answer where
  /-- The record that the new one takes the place of, if there is one. -/
  | replaced (r? : Option Record)
  | pushed
  | notFound (e : NotFound)
deriving DecidableEq, Repr

end Step

namespace Table

/--
The answer of a step, and the table after it. A call from an unknown function leaves the table as it is.
-/
def perform (t : Table) : Step → Step.Answer × Table
  | .define r => (.replaced (t.replace r).1, (t.replace r).2)
  | .call caller callee =>
    match t.pushCall caller callee with
    | .ok u => (.pushed, u)
    | .error e => (.notFound e, t)

def performAll (t : Table) (ss : List Step) : Table := ss.foldl (fun t s => (t.perform s).2) t

theorem perform_snd (t : Table) (s : Step) : (t.perform s).2 = s.apply t := by
  cases s with
  | define r => rfl
  | call caller callee =>
    dsimp only [perform, Step.apply]
    cases t.pushCall caller callee with
    | ok u => rfl
    | error e => rfl

theorem performAll_eq_foldl_apply (t : Table) (ss : List Step)
    : t.performAll ss = ss.foldl Step.apply t := by
  unfold performAll
  simp only [perform_snd]

theorem ofList_eq_performAll (rs : List Record) : ofList rs = empty.performAll (rs.map .define) := by
  unfold ofList performAll
  rw [List.foldl_map]
  rfl

theorem performAll_append (t : Table) (ss ss' : List Step)
    : t.performAll (ss ++ ss') = (t.performAll ss).performAll ss' := by
  unfold performAll
  rw [List.foldl_append]

theorem perform_call_of_mem (t : Table) (caller callee : String) (h : caller ∈ t.names)
    : (t.perform (.call caller callee)).1 = .pushed := by
  rw [← isSome_get?_iff] at h
  simp only [perform, pushCall, h, ↓reduceIte]

theorem perform_call_of_not_mem (t : Table) (caller callee : String) (h : caller ∉ t.names)
    : t.perform (.call caller callee) = (.notFound ⟨caller⟩, t) := by
  rw [← isSome_get?_iff] at h
  simp only [perform, pushCall, h, Bool.false_eq_true, ↓reduceIte]

theorem get?_perform_of_ne_target (t : Table) (s : Step) (name : String) (h : name ≠ s.target)
    : (t.perform s).2.get? name = t.get? name := by
  rw [perform_snd, Step.get?_apply]
  cases s with
  | define r => exact if_neg (Ne.symm h)
  | call caller callee => exact if_neg (Ne.symm h)

theorem names_isPrefix_perform (t : Table) (s : Step) : t.names <+: (t.perform s).2.names := by
  rw [perform_snd]
  cases s with
  | define r =>
    rw [Step.apply, names_insert]
    split
    . apply List.prefix_refl
    . apply List.prefix_append
  | call caller callee => simp only [Step.names_apply_call, List.prefix_refl]

theorem map_get?_names (t : Table) : t.names.map t.get? = t.records.map some := by
  unfold names
  rw [List.map_map]
  apply List.map_congr_left
  intro r hr
  apply get?_of_mem hr

end Table

/--
The names under which a history has put a record, as often as it has.
-/
def insertedNames (history : List Step) : List String := history.filterMap Step.defined?

/--
A table is what a history makes of the empty one: each field says what one of its views shows, or what a
further step does.
-/
structure Follows (history : List Step) (t : Table) : Prop where
  nodup : t.names.Nodup
  names : t.names = (insertedNames history).eraseDups
  isSome_get? : ∀ name, (t.get? name).isSome ↔ name ∈ insertedNames history
  name_of_get? : ∀ name r, t.get? name = some r → r.name = name
  records : t.records.map some = t.names.map t.get?
  size : t.size = t.names.length
  /-- The last record under a name, with the calls since then. -/
  get? : ∀ before r after, history = before ++ .define r :: after → r.name ∉ insertedNames after →
    t.get? r.name = some { r with calls := r.calls ++ after.filterMap (Step.calleeFrom? r.name) }
  replaced : ∀ r, (t.perform (.define r)).1 = .replaced (t.get? r.name)
  pushed : ∀ caller callee, caller ∈ insertedNames history →
    (t.perform (.call caller callee)).1 = .pushed
  notFound : ∀ caller callee, caller ∉ insertedNames history →
    t.perform (.call caller callee) = (.notFound ⟨caller⟩, t)
  others : ∀ s name, name ≠ s.target → (t.perform s).2.get? name = t.get? name
  order : ∀ s, t.names <+: (t.perform s).2.names

theorem names_performAll_empty (history : List Step)
    : (Table.empty.performAll history).names = (insertedNames history).eraseDups := by
  rw [Table.performAll_eq_foldl_apply, Step.names_foldl_apply, Table.names_empty, List.nil_append]
  rfl

theorem mem_names_performAll_empty_iff (history : List Step) (name : String)
    : name ∈ (Table.empty.performAll history).names ↔ name ∈ insertedNames history := by
  rw [names_performAll_empty, List.mem_eraseDups]

theorem get?_performAll_of_last_define (t : Table) (before after : List Step) (r : Record)
    (h : r.name ∉ insertedNames after)
    : (t.performAll (before ++ .define r :: after)).get? r.name
        =
      some { r with calls := r.calls ++ after.filterMap (Step.calleeFrom? r.name) }
      := by
  have hdefine : ∀ r?, Step.update r.name r? (.define r) = some r := by
    intro r?
    rw [Step.update, if_pos rfl]
  rw [Table.performAll_eq_foldl_apply, Step.get?_foldl_apply, List.foldl_append, List.foldl_cons, hdefine]
  apply Step.foldl_update_of_not_defined
  intro s hs heq
  apply h
  unfold insertedNames
  rw [List.mem_filterMap]
  exact ⟨s, hs, heq⟩

theorem follows_performAll_empty (history : List Step)
    : Follows history (Table.empty.performAll history) where
  nodup := (Table.empty.performAll history).nodup
  names := names_performAll_empty history
  isSome_get? name := by rw [Table.isSome_get?_iff, mem_names_performAll_empty_iff]
  name_of_get? name r h := Table.name_of_get? h
  records := (Table.map_get?_names _).symm
  size := by
    unfold Table.size Table.names
    rw [List.length_map]
  get? before r after h hafter := by
    rw [h]
    apply get?_performAll_of_last_define Table.empty before after r hafter
  replaced r := rfl
  pushed caller callee h := by
    rw [← mem_names_performAll_empty_iff] at h
    apply Table.perform_call_of_mem _ _ _ h
  notFound caller callee h := by
    rw [← mem_names_performAll_empty_iff] at h
    apply Table.perform_call_of_not_mem _ _ _ h
  others := Table.get?_perform_of_ne_target _
  order := Table.names_isPrefix_perform _

/--
A table in two parts: the names in the order in which they came, and the records by name.
-/
structure Index where
  order : List String := []
  records : Std.HashMap String Record := {}

namespace Index

def get? (x : Index) (name : String) : Option Record := x.records[name]?

/--
The records in the order of their names; a name without a record is passed over.
-/
def toList (x : Index) : List Record := x.order.filterMap x.get?

/--
The answer of a step, and the index after it. A name goes to the end of the order if it had no record.
-/
def perform (x : Index) : Step → Step.Answer × Index
  | .define r =>
    (.replaced (x.get? r.name),
      { order := if (x.get? r.name).isNone then x.order ++ [r.name] else x.order
        records := x.records.insert r.name r })
  | .call caller callee =>
    if (x.get? caller).isSome then
      (.pushed, { x with records := x.records.modify caller (·.pushCall callee) })
    else (.notFound ⟨caller⟩, x)

def performAll (x : Index) (ss : List Step) : Index := ss.foldl (fun x s => (x.perform s).2) x

def ofList (rs : List Record) : Index := performAll {} (rs.map .define)

/--
An index holds the same as a table.
-/
structure InStep (x : Index) (t : Table) : Prop where
  order : x.order = t.names
  get? : ∀ name, x.get? name = t.get? name

theorem inStep_empty : InStep {} Table.empty := by
  refine ⟨rfl, ?_⟩
  intro name
  apply Std.HashMap.getElem?_empty

theorem toList_eq_records {x : Index} {t : Table} (h : InStep x t) : x.toList = t.records := by
  unfold toList
  rw [Table.records_eq_filterMap_get?, h.order]
  apply List.filterMap_congr
  intro name _
  apply h.get?

theorem perform_call_of_isSome (x : Index) (caller callee : String) (h : (x.get? caller).isSome)
    : x.perform (.call caller callee)
        = (.pushed, { x with records := x.records.modify caller (·.pushCall callee) }) := by
  rw [perform, if_pos h]

theorem perform_call_of_not_isSome (x : Index) (caller callee : String)
    (h : ¬(x.get? caller).isSome) : x.perform (.call caller callee) = (.notFound ⟨caller⟩, x) := by
  rw [perform, if_neg h]

theorem get?_perform (x : Index) (s : Step) (name : String)
    : (x.perform s).2.get? name = Step.update name (x.get? name) s := by
  cases s with
  | define r => simp [perform, get?, Step.update, Std.HashMap.getElem?_insert]
  | call caller callee =>
    dsimp only [Step.update]
    by_cases hsome : (x.get? caller).isSome
    . rw [perform_call_of_isSome x caller callee hsome]
      dsimp only [get?]
      simp only [Std.HashMap.getElem?_modify, beq_iff_eq]
      split
      . next h => rw [h]
      . rfl
    . rw [perform_call_of_not_isSome x caller callee hsome]
      split
      . next h =>
        rw [Option.not_isSome_iff_eq_none, h] at hsome
        rw [hsome]
        rfl
      . rfl

/--
A step on an index answers as on the table that it is in step with, and keeps it so.
-/
theorem inStep_perform {x : Index} {t : Table} (h : InStep x t) (s : Step)
    : (x.perform s).1 = (t.perform s).1 ∧ InStep (x.perform s).2 (t.perform s).2 := by
  have hget : ∀ name, (x.perform s).2.get? name = (t.perform s).2.get? name := by
    intro name
    rw [get?_perform, Table.perform_snd, Step.get?_apply, h.get?]
  cases s with
  | define r =>
    refine ⟨congrArg Step.Answer.replaced (h.get? r.name), ?_, hget⟩
    rw [Table.perform_snd, Step.apply, Table.names_insert]
    dsimp only [perform]
    rw [h.get?, h.order]
    by_cases hmem : r.name ∈ t.names
    . have hsome := (Table.isSome_get?_iff t r.name).mpr hmem
      rw [if_pos hmem, if_neg]
      rw [Option.isNone_iff_eq_none, ← Option.not_isSome_iff_eq_none, not_not]
      exact hsome
    . rw [if_neg hmem, if_pos]
      rw [Option.isNone_iff_eq_none, Table.get?_eq_none_iff]
      exact hmem
  | call caller callee =>
    have hiff : (x.get? caller).isSome ↔ caller ∈ t.names := by
      rw [h.get?, Table.isSome_get?_iff]
    by_cases hmem : caller ∈ t.names
    . refine ⟨?_, ?_, hget⟩
      . rw [Table.perform_call_of_mem t caller callee hmem,
          perform_call_of_isSome x caller callee (hiff.mpr hmem)]
      . rw [Table.perform_snd, Step.names_apply_call,
          perform_call_of_isSome x caller callee (hiff.mpr hmem)]
        exact h.order
    . rw [Table.perform_call_of_not_mem t caller callee hmem,
        perform_call_of_not_isSome x caller callee (mt hiff.mp hmem)]
      exact ⟨rfl, h⟩

theorem inStep_performAll {x : Index} {t : Table} (h : InStep x t) (ss : List Step)
    : InStep (x.performAll ss) (t.performAll ss) := by
  induction ss generalizing x t with
  | nil => exact h
  | cons s ss ih => exact ih (inStep_perform h s).2

theorem inStep_ofList (rs : List Record) : InStep (ofList rs) (Table.ofList rs) := by
  rw [Table.ofList_eq_performAll]
  apply inStep_performAll inStep_empty

end Index

/--
A table that is made of some records and goes through some steps is what this history says, and an index
that goes through the same is in step with it.
-/
theorem follows_performAll (rs : List Record) (ss : List Step)
    : Follows (rs.map .define ++ ss) ((Table.ofList rs).performAll ss) ∧
      Index.InStep ((Index.ofList rs).performAll ss) ((Table.ofList rs).performAll ss) ∧
      ((Index.ofList rs).performAll ss).toList = ((Table.ofList rs).performAll ss).records ∧
      ∀ s, (((Index.ofList rs).performAll ss).perform s).1
          = (((Table.ofList rs).performAll ss).perform s).1 := by
  have hindex := Index.inStep_performAll (Index.inStep_ofList rs) ss
  refine ⟨?_, hindex, Index.toList_eq_records hindex, ?_⟩
  . rw [Table.ofList_eq_performAll, ← Table.performAll_append]
    apply follows_performAll_empty
  . intro s
    apply (Index.inStep_perform hindex s).1

/--
A function that is called from before and after it is defined anew, and a call from an unknown one.
-/
def revised : List Step := [
  .call "g" "y",
  .define { name := "f" },
  .define { name := "g", summary := "New.", calls := ["a"] },
  .call "h" "c",
  .call "g" "z"
]

theorem follows_performAll_revised
    : let t := (Table.ofList [{ name := "g", calls := ["x"] }]).performAll revised
      t.names = ["g", "f"] ∧
        t.get? "g" = some { name := "g", summary := "New.", calls := ["a", "z"] } ∧
        t.perform (.call "h" "c") = (.notFound ⟨"h"⟩, t) ∧
        ((Index.ofList [{ name := "g", calls := ["x"] }]).performAll revised).toList = t.records := by
  intro t
  rcases follows_performAll [{ name := "g", calls := ["x"] }] revised with ⟨hfollows, _, hlist, _⟩
  refine ⟨hfollows.names, ?_, ?_, hlist⟩
  . apply hfollows.get? [.define { name := "g", calls := ["x"] }, .call "g" "y", .define { name := "f" }]
      { name := "g", summary := "New.", calls := ["a"] } [.call "h" "c", .call "g" "z"] rfl
    decide
  . apply hfollows.notFound "h" "c"
    decide

end CallFlow.Functions
