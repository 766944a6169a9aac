import CallFlow.Proofs.Functions.History

/-!
This module contains when two tables are the same. The parts of an `Index` are the same just if its records come
in the same sequence (`beq_iff_toList_eq`), since its order and its map are in step with one table.
-/

namespace CallFlow.Functions

theorem Table.eq_iff_records_eq (t u : Table) : t = u ↔ t.records = u.records := by
  constructor
  . rintro rfl
    rfl
  . intro h
    cases t
    cases u
    simp_all

namespace Index

/--
Each part is compared on its own. Two maps are the same if they hold the same records under the same names.
-/
instance : BEq Index where
  beq x y := x.order == y.order && x.records == y.records

theorem beq_iff (x y : Index)
    : (x == y) = true ↔ x.order = y.order ∧ ∀ name, x.get? name = y.get? name := by
  have hparts : (x == y) = (x.order == y.order && x.records == y.records) := rfl
  rw [hparts, Bool.and_eq_true, beq_iff_eq, Std.HashMap.beq_iff_equiv]
  apply and_congr_right
  intro _
  constructor
  . intro h name
    exact h.getElem?_eq
  . intro h
    exact Std.HashMap.Equiv.of_forall_getElem?_eq h

section InStep

variable {x y : Index} {t u : Table}

theorem beq_iff_eq_of_inStep (hx : InStep x t) (hy : InStep y u) : (x == y) = true ↔ t = u := by
  rw [beq_iff, hx.order, hy.order]
  simp only [hx.get?, hy.get?]
  constructor
  . rintro ⟨hnames, hget⟩
    exact Table.ext_get? hnames hget
  . rintro rfl
    exact ⟨rfl, fun _ => rfl⟩

theorem beq_iff_toList_eq_of_inStep (hx : InStep x t) (hy : InStep y u)
    : (x == y) = true ↔ x.toList = y.toList := by
  rw [beq_iff_eq_of_inStep hx hy, Table.eq_iff_records_eq, toList_eq_records hx, toList_eq_records hy]

theorem ofList_toList_beq (hx : InStep x t) : (ofList x.toList == x) = true := by
  rw [beq_iff_eq_of_inStep (inStep_ofList x.toList) hx, toList_eq_records hx]
  apply Table.ofList_records

theorem perform_performAll_eq_of_toList_eq (hx : InStep x t) (hy : InStep y u)
    (h : x.toList = y.toList) (ss : List Step) (s : Step)
    : ((x.performAll ss).perform s).1 = ((y.performAll ss).perform s).1 := by
  rw [toList_eq_records hx, toList_eq_records hy, ← Table.eq_iff_records_eq] at h
  rw [(inStep_perform (inStep_performAll hx ss) s).1, (inStep_perform (inStep_performAll hy ss) s).1, h]

end InStep

/--
Two tables, each made of some records and taken through some steps, are the same just if they show the same
sequence of records, and each comes back from the records that it shows. Those of one sequence also answer all
later steps alike.
-/
theorem beq_iff_toList_eq (rs rs' : List Record) (ss ss' : List Step)
    : let x := (ofList rs).performAll ss
      let y := (ofList rs').performAll ss'
      let t := (Table.ofList rs).performAll ss
      let u := (Table.ofList rs').performAll ss'
      ((x == y) = true ↔ x.toList = y.toList) ∧
        (ofList x.toList == x) = true ∧
        (x.toList = y.toList → ∀ later s,
          ((x.performAll later).perform s).1 = ((y.performAll later).perform s).1) ∧
        ((x == y) = true ↔ t = u) ∧
        (t = u ↔ t.records = u.records) ∧
        Table.ofList t.records = t := by
  intro x y t u
  have hx : InStep x t := inStep_performAll (inStep_ofList rs) ss
  have hy : InStep y u := inStep_performAll (inStep_ofList rs') ss'
  refine ⟨beq_iff_toList_eq_of_inStep hx hy, ofList_toList_beq hx, ?_, beq_iff_eq_of_inStep hx hy,
    Table.eq_iff_records_eq t u, Table.ofList_records t⟩
  intro h later s
  apply perform_performAll_eq_of_toList_eq hx hy h

/--
A table after `revised`, and one made at once of the records that it then has.
-/
theorem beq_iff_toList_eq_revised
    : let x := (ofList [{ name := "g", calls := ["x"] }]).performAll revised
      let y := ofList [{ name := "g", summary := "New.", calls := ["a", "z"] }, { name := "f" }]
      x.toList = y.toList ∧
        (x == y) = true ∧
        ∀ later s, ((x.performAll later).perform s).1 = ((y.performAll later).perform s).1 := by
  intro x y
  have h : x.toList = y.toList := by
    have hx := inStep_performAll (inStep_ofList [{ name := "g", calls := ["x"] }]) revised
    rw [toList_eq_records hx, toList_eq_records (inStep_ofList _)]
    decide
  rcases beq_iff_toList_eq [{ name := "g", calls := ["x"] }]
      [{ name := "g", summary := "New.", calls := ["a", "z"] }, { name := "f" }] revised []
    with ⟨hiff, _, hlater, _⟩
  exact ⟨h, hiff.mpr h, hlater h⟩

end Index

end CallFlow.Functions
