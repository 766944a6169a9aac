import Mathlib.Data.List.Basic
import Mathlib.Data.List.Induction
import Mathlib.Data.List.Nodup
import CallFlow.Functions.Table

/-!
This module contains what each operation on a table does to its `names` and to the records that `get?`
finds. These two determine a table (`ext_get?`), so equations between tables are shown through them.
-/

namespace CallFlow.Functions

theorem eraseDups_concat (names : List String) (name : String)
    : (names ++ [name]).eraseDups
        =
      if name ∈ names then names.eraseDups else names.eraseDups ++ [name]
      := by
  rw [List.eraseDups_append, List.cons_removeAll]
  by_cases h : name ∈ names
  . simp [h]
  . simp [h, List.eraseDups_cons]

theorem eraseDups_of_nodup (names : List String) (h : names.Nodup) : names.eraseDups = names := by
  induction names using List.reverseRecOn with
  | nil => rfl
  | append_singleton names name ih =>
    rw [List.nodup_append] at h
    have hmem : name ∉ names := by
      intro hmem
      apply h.2.2 name hmem name List.mem_cons_self
      rfl
    rw [eraseDups_concat, if_neg hmem, ih h.1]

theorem find?_name_cons (r : Record) (rs : List Record) (name : String)
    : (r :: rs).find? (·.name == name)
        =
      if r.name = name then some r else rs.find? (·.name == name)
      := by
  rw [List.find?_cons]
  by_cases h : r.name = name
  . simp only [h, BEq.rfl, ↓reduceIte]
  . have : (r.name == name) = false := by simpa using h
    simp only [this, h, ↓reduceIte]

theorem names_insertRecord (r : Record) (rs : List Record)
    : (insertRecord r rs).map Record.name
        =
      if r.name ∈ rs.map Record.name then
        rs.map Record.name
      else
        rs.map Record.name ++ [r.name]
      := by
  induction rs with
  | nil => simp [insertRecord]
  | cons s rs ih =>
    unfold insertRecord
    split
    . next h => simp [h]
    . next h =>
      rw [List.map_cons, List.map_cons, ih]
      have : r.name ≠ s.name := Ne.symm h
      by_cases hmem : r.name ∈ rs.map Record.name
      . simp [hmem]
      . simp [hmem, this]

theorem find?_insertRecord (r : Record) (rs : List Record) (name : String)
    : (insertRecord r rs).find? (·.name == name)
        =
      if r.name = name then some r else rs.find? (·.name == name)
      := by
  induction rs with
  | nil =>
    rw [insertRecord, find?_name_cons]
  | cons s rs ih =>
    unfold insertRecord
    split
    . next h =>
      rw [find?_name_cons, find?_name_cons, h]
      split <;> rfl
    . next h =>
      rw [find?_name_cons, find?_name_cons, ih]
      by_cases hs : s.name = name
      . have : r.name ≠ name := by
          rw [← hs]
          exact Ne.symm h
        simp only [hs, this, ↓reduceIte]
      . simp only [hs, ↓reduceIte]

theorem insertRecord_of_not_mem (r : Record) (rs : List Record) (h : r.name ∉ rs.map Record.name)
    : insertRecord r rs = rs ++ [r] := by
  induction rs with
  | nil => rfl
  | cons s rs ih =>
    rw [List.map_cons, List.mem_cons, not_or] at h
    unfold insertRecord
    rw [if_neg (Ne.symm h.1), ih h.2, List.cons_append]

theorem find?_pushCallTo (caller callee : String) (rs : List Record) (name : String)
    : (pushCallTo caller callee rs).find? (·.name == name)
        =
      if caller = name then
        (rs.find? (·.name == name)).map (·.pushCall callee)
      else
        rs.find? (·.name == name)
      := by
  induction rs with
  | nil => simp [pushCallTo]
  | cons r rs ih =>
    unfold pushCallTo
    split
    . next h =>
      rw [find?_name_cons, find?_name_cons, Record.pushCall_name, h]
      split <;> rfl
    . next h =>
      rw [find?_name_cons, find?_name_cons, ih]
      by_cases hr : r.name = name
      . have : caller ≠ name := by
          rw [← hr]
          exact Ne.symm h
        simp only [hr, this, ↓reduceIte]
      . simp only [hr, ↓reduceIte]

theorem pushCallTo_of_not_mem (caller callee : String) (rs : List Record)
    (h : caller ∉ rs.map Record.name) : pushCallTo caller callee rs = rs := by
  induction rs with
  | nil => rfl
  | cons r rs ih =>
    rw [List.map_cons, List.mem_cons, not_or] at h
    unfold pushCallTo
    rw [if_neg (Ne.symm h.1), ih h.2]

namespace Table

@[simp]
theorem names_empty : empty.names = [] := rfl

@[simp]
theorem get?_empty (name : String) : empty.get? name = none := rfl

theorem names_insert (t : Table) (r : Record)
    : (t.insert r).names = if r.name ∈ t.names then t.names else t.names ++ [r.name] := by
  apply names_insertRecord

theorem mem_names_insert_iff (t : Table) (r : Record) (name : String)
    : name ∈ (t.insert r).names ↔ name = r.name ∨ name ∈ t.names := by
  apply mem_names_insertRecord

theorem get?_insert (t : Table) (r : Record) (name : String)
    : (t.insert r).get? name = if r.name = name then some r else t.get? name := by
  apply find?_insertRecord

theorem isSome_get?_iff (t : Table) (name : String) : (t.get? name).isSome ↔ name ∈ t.names := by
  unfold get? names
  simp

theorem get?_eq_none_iff (t : Table) (name : String) : t.get? name = none ↔ name ∉ t.names := by
  rw [← isSome_get?_iff, Option.not_isSome_iff_eq_none]

/--
Each record is the one found under its name.
-/
theorem records_eq_filterMap_get? (t : Table) : t.records = t.names.filterMap t.get? := by
  rcases t with ⟨rs, h⟩
  unfold names get?
  dsimp
  induction rs with
  | nil => rfl
  | cons r rs ih =>
    rw [List.map_cons, List.nodup_cons] at h
    rw [List.map_cons, List.filterMap_cons, find?_name_cons]
    simp only [↓reduceIte, List.cons.injEq, true_and]
    apply Eq.trans (ih h.2)
    apply List.filterMap_congr
    intro name hname
    rw [find?_name_cons]
    have : r.name ≠ name := by
      intro heq
      apply h.1
      rw [heq]
      exact hname
    rw [if_neg this]

theorem ext_get? {t u : Table} (hnames : t.names = u.names) (hget : ∀ name, t.get? name = u.get? name)
    : t = u := by
  have : t.records = u.records := by
    rw [records_eq_filterMap_get?, records_eq_filterMap_get?, hnames]
    apply List.filterMap_congr
    intro name _
    apply hget
  cases t
  cases u
  simp_all

theorem nodup_records (t : Table) : t.records.Nodup := by
  apply List.Nodup.of_map
  exact t.nodup

theorem eq_of_name_eq {t : Table} {r s : Record} (hr : r ∈ t.records) (hs : s ∈ t.records)
    (h : r.name = s.name) : r = s := by
  apply List.inj_on_of_nodup_map t.nodup hr hs h

theorem mem_records_of_get? {t : Table} {name : String} {r : Record} (h : t.get? name = some r)
    : r ∈ t.records := by
  apply List.mem_of_find?_eq_some h

theorem name_of_get? {t : Table} {name : String} {r : Record} (h : t.get? name = some r)
    : r.name = name := by
  have := List.find?_some h
  apply eq_of_beq this

theorem get?_of_mem {t : Table} {r : Record} (h : r ∈ t.records) : t.get? r.name = some r := by
  have hsome : (t.get? r.name).isSome := by
    rw [isSome_get?_iff]
    apply List.mem_map_of_mem h
  rw [Option.isSome_iff_exists] at hsome
  rcases hsome with ⟨s, hs⟩
  rw [hs, Option.some.injEq]
  apply eq_of_name_eq (mem_records_of_get? hs) h (name_of_get? hs)

theorem get?_eq_some_iff (t : Table) (name : String) (r : Record)
    : t.get? name = some r ↔ r ∈ t.records ∧ r.name = name := by
  constructor
  . intro h
    exact ⟨mem_records_of_get? h, name_of_get? h⟩
  . rintro ⟨hmem, rfl⟩
    apply get?_of_mem hmem

theorem get?_eq_of_perm {t u : Table} (h : t.records.Perm u.records) (name : String)
    : t.get? name = u.get? name := by
  apply Option.ext
  intro r
  rw [get?_eq_some_iff, get?_eq_some_iff, h.mem_iff]

theorem records_insert_of_not_mem (t : Table) (r : Record) (h : r.name ∉ t.names)
    : (t.insert r).records = t.records ++ [r] := by
  apply insertRecord_of_not_mem
  exact h

theorem filter_name_ne (t : Table) (r : Record) (h : r ∈ t.records)
    : t.records.filter (·.name != r.name) = t.records.erase r := by
  rw [t.nodup_records.erase_eq_filter]
  apply List.filter_congr
  intro s hs
  rw [Bool.eq_iff_iff, bne_iff_ne, bne_iff_ne, not_iff_not]
  constructor
  . apply eq_of_name_eq hs h
  . intro heq
    rw [heq]

theorem names_foldl_insert (t : Table) (rs : List Record)
    : (rs.foldl insert t).names = (t.names ++ rs.map Record.name).eraseDups := by
  induction rs using List.reverseRecOn with
  | nil =>
    simp only [List.foldl_nil, List.map_nil, List.append_nil]
    rw [eraseDups_of_nodup]
    exact t.nodup
  | append_singleton rs r ih =>
    rw [List.foldl_append, List.map_append, ← List.append_assoc]
    simp only [List.foldl_cons, List.foldl_nil, List.map_cons, List.map_nil]
    rw [eraseDups_concat, names_insert, ih]
    simp only [List.mem_eraseDups]

theorem get?_foldl_insert (t : Table) (rs : List Record) (h : (rs.map Record.name).Nodup)
    (name : String)
    : (rs.foldl insert t).get? name = (rs.find? (·.name == name)).or (t.get? name) := by
  induction rs generalizing t with
  | nil => rfl
  | cons r rs ih =>
    rw [List.map_cons, List.nodup_cons] at h
    rw [List.foldl_cons, ih _ h.2, get?_insert, find?_name_cons]
    by_cases hr : r.name = name
    . have : rs.find? (·.name == name) = none := by
        rw [List.find?_eq_none]
        intro s hs heq
        apply h.1
        rw [hr, ← eq_of_beq heq]
        apply List.mem_map_of_mem hs
      simp [hr, this]
    . simp [hr]

theorem names_foldl_insert_records (t u : Table)
    : (u.records.foldl insert t).names = (t.names ++ u.names).eraseDups := by
  apply names_foldl_insert

theorem get?_foldl_insert_records (t u : Table) (name : String)
    : (u.records.foldl insert t).get? name = (u.get? name).or (t.get? name) := by
  apply get?_foldl_insert
  exact u.nodup

/--
A table comes back from its records.
-/
theorem ofList_records (t : Table) : ofList t.records = t := by
  unfold ofList
  apply ext_get?
  . rw [names_foldl_insert_records, names_empty, List.nil_append, eraseDups_of_nodup]
    exact t.nodup
  . intro name
    rw [get?_foldl_insert_records, get?_empty, Option.or_none]

end Table

end CallFlow.Functions
