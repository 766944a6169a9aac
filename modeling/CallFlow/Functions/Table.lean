import CallFlow.Functions.Record

/-!
The table of functions.

A table holds one record for each name, in the order in which the names came. A record that comes
under a known name takes the place of the one that stands there. Its operations are `insert`,
`pushCall`, `get?`, and `ofList`, which inserts the records of a list.
-/
namespace CallFlow.Functions

structure NotFound where
  name : String
deriving DecidableEq, Repr, Inhabited

def NotFound.message (e : NotFound) : String := "function not found: " ++ e.name

/--
Puts a record in the place of the one with its name, or else at the end.
-/
def insertRecord (r : Record) : List Record → List Record
  | [] => [r]
  | s :: rs => if s.name = r.name then r :: rs else s :: insertRecord r rs

def pushCallTo (caller callee : String) : List Record → List Record
  | [] => []
  | r :: rs =>
    if r.name = caller then r.pushCall callee :: rs else r :: pushCallTo caller callee rs

theorem mem_names_insertRecord {r : Record} {rs : List Record} {name : String} :
    name ∈ (insertRecord r rs).map Record.name ↔ name = r.name ∨ name ∈ rs.map Record.name := by
  induction rs with
  | nil => simp [insertRecord]
  | cons s rs ih =>
    unfold insertRecord
    split
    . simp_all
    . simp_all only [List.map_cons, List.mem_cons]
      constructor <;> rintro (h | h | h) <;> simp [h]

theorem nodup_insertRecord {r : Record} {rs : List Record} (h : (rs.map Record.name).Nodup) :
    ((insertRecord r rs).map Record.name).Nodup := by
  induction rs with
  | nil => simp [insertRecord]
  | cons s rs ih =>
    simp only [List.map_cons, List.nodup_cons] at h
    unfold insertRecord
    split
    . simp_all
    . rename_i hne
      simp only [List.map_cons, List.nodup_cons, mem_names_insertRecord]
      exact ⟨fun hm => hm.elim hne h.1, ih h.2⟩

@[simp]
theorem names_pushCallTo (caller callee : String) (rs : List Record) :
    (pushCallTo caller callee rs).map Record.name = rs.map Record.name := by
  induction rs with
  | nil => rfl
  | cons r rs ih =>
    unfold pushCallTo
    split <;> simp [ih]

structure Table where
  records : List Record := []
  nodup : (records.map Record.name).Nodup := by simp
deriving DecidableEq, Repr

namespace Table

def empty : Table := {}

instance : Inhabited Table := ⟨empty⟩

def names (t : Table) : List String := t.records.map Record.name

def size (t : Table) : Nat := t.records.length

def isEmpty (t : Table) : Bool := t.records.isEmpty

def get? (t : Table) (name : String) : Option Record :=
  t.records.find? (·.name == name)

def get (t : Table) (name : String) : Except NotFound Record :=
  match t.get? name with
  | some r => .ok r
  | none => .error ⟨name⟩

def insert (t : Table) (r : Record) : Table where
  records := insertRecord r t.records
  nodup := nodup_insertRecord t.nodup

def replace (t : Table) (r : Record) : Option Record × Table := (t.get? r.name, t.insert r)

def pushCall (t : Table) (caller callee : String) : Except NotFound Table :=
  if (t.get? caller).isSome then
    .ok { records := pushCallTo caller callee t.records
          nodup := by simpa using t.nodup }
  else .error ⟨caller⟩

/--
The table of some records. Of those with one name the last counts.
-/
def ofList (rs : List Record) : Table := rs.foldl insert empty

end Table

end CallFlow.Functions
