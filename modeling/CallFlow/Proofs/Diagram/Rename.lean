import CallFlow.Proofs.Diagram.Build

/-!
This module contains that diagrams do not depend on how names are spelled. Renaming the functions of a table
and those that they call renames the diagram, as long as no two names become one (`build_rename`).
-/

namespace CallFlow.Functions

/--
The record and its calls under other names. The signature and the summary stay.
-/
def Record.rename (ρ : String → String) (r : Record) : Record :=
  { r with name := ρ r.name, calls := r.calls.map ρ }

namespace Table

/--
All names that occur in a table: those of its records, and those of the functions that they call.
-/
def mentioned (t : Table) : List String := t.names ++ t.records.flatMap Record.calls

def rename (ρ : String → String) (t : Table) : Table := .ofList (t.records.map (Record.rename ρ))

/--
No two names of a table become one.
-/
def Separates (ρ : String → String) (t : Table) : Prop :=
  ∀ a ∈ t.mentioned, ∀ b ∈ t.mentioned, ρ a = ρ b → a = b

instance (ρ : String → String) (t : Table) : Decidable (Separates ρ t) :=
  inferInstanceAs (Decidable (∀ a ∈ t.mentioned, ∀ b ∈ t.mentioned, ρ a = ρ b → a = b))

theorem name_mem_mentioned {t : Table} {r : Record} (h : r ∈ t.records) : r.name ∈ t.mentioned := by
  unfold mentioned
  rw [List.mem_append]
  left
  apply List.mem_map_of_mem h

theorem call_mem_mentioned {t : Table} {r : Record} (h : r ∈ t.records) {c : String}
    (hc : c ∈ r.calls) : c ∈ t.mentioned := by
  unfold mentioned
  rw [List.mem_append, List.mem_flatMap]
  right
  exact ⟨r, h, hc⟩

theorem names_map_rename (ρ : String → String) (t : Table)
    : (t.records.map (Record.rename ρ)).map Record.name = t.names.map ρ := by
  unfold names
  rw [List.map_map, List.map_map]
  rfl

variable {ρ : String → String} {t : Table}

theorem nodup_names_map_rename (h : t.Separates ρ)
    : ((t.records.map (Record.rename ρ)).map Record.name).Nodup := by
  rw [names_map_rename]
  apply List.Nodup.map_on _ t.nodup
  intro a ha b hb heq
  apply h a _ b _ heq
  . exact List.mem_append_left _ ha
  . exact List.mem_append_left _ hb

theorem records_rename (h : t.Separates ρ)
    : (t.rename ρ).records = t.records.map (Record.rename ρ) := by
  -- Without a clash of names they make up a table, which comes back from its records.
  let u : Table := ⟨t.records.map (Record.rename ρ), nodup_names_map_rename h⟩
  have : t.rename ρ = u := ofList_records u
  rw [this]

theorem name_rename_beq (h : t.Separates ρ) {r : Record} (hr : r ∈ t.records) {name : String}
    (hname : name ∈ t.mentioned) : ((r.rename ρ).name == ρ name) = (r.name == name) := by
  rw [Bool.eq_iff_iff, beq_iff_eq, beq_iff_eq]
  constructor
  . intro heq
    apply h _ (name_mem_mentioned hr) _ hname heq
  . intro heq
    rw [← heq]
    rfl

theorem get?_rename (h : t.Separates ρ) {name : String} (hname : name ∈ t.mentioned)
    : (t.rename ρ).get? (ρ name) = (t.get? name).map (Record.rename ρ) := by
  unfold get?
  rw [records_rename h, List.find?_map, ← List.head?_filter, ← List.head?_filter]
  congr 2
  apply List.filter_congr
  intro r hr
  apply name_rename_beq h hr hname

end Table

end CallFlow.Functions

namespace CallFlow.Diagram

open CallFlow.Functions

/--
The line with its names changed. What it says of parameters, results and purpose stays.
-/
def Line.rename (ρ : String → String) : Line → Line
  | .call caller callee parameters => .call (ρ caller) (ρ callee) parameters
  | .reply caller callee annotation => .reply (ρ caller) (ρ callee) annotation
  | .note participant text => .note (ρ participant) text

def Phase.rename (ρ : String → String) : Phase → Phase
  | .complete => .complete
  | .truncated callee skipped => .truncated (ρ callee) skipped

def rename (ρ : String → String) (d : Diagram) : Diagram where
  main := ρ d.main
  lines := d.lines.map (Line.rename ρ)
  phase := d.phase.rename ρ

variable {ρ : String → String} {t : Table}

theorem moreCalls_rename (best? : Option Record) (r : Record)
    : moreCalls (best?.map (Record.rename ρ)) (r.rename ρ)
        =
      (moreCalls best? r).map (Record.rename ρ)
      := by
  cases best? with
  | none => rfl
  | some best =>
    have hcount : ∀ r : Record, (r.rename ρ).callCount = r.callCount := by
      intro r
      apply List.length_map
    unfold moreCalls
    rw [Option.map_some]
    dsimp only
    rw [hcount, hcount]
    split <;> rfl

theorem foldl_moreCalls_rename (best? : Option Record) (rs : List Record)
    : (rs.map (Record.rename ρ)).foldl moreCalls (best?.map (Record.rename ρ))
        =
      (rs.foldl moreCalls best?).map (Record.rename ρ)
      := by
  induction rs generalizing best? with
  | nil => rfl
  | cons r rs ih => rw [List.map_cons, List.foldl_cons, List.foldl_cons, moreCalls_rename, ih]

theorem selectMain_rename (h : t.Separates ρ)
    : selectMain (t.rename ρ) = (selectMain t).map (Record.rename ρ) := by
  have hfold := foldl_moreCalls_rename (ρ := ρ) none t.records
  rw [Option.map_none] at hfold
  unfold selectMain
  rw [Table.records_rename h, hfold]
  cases t.records.foldl moreCalls none <;> rfl

theorem block_rename (h : t.Separates ρ) (caller : String) {callee : String}
    (hcallee : callee ∈ t.mentioned)
    : block (t.rename ρ) (ρ caller) (ρ callee) = (block t caller callee).map (Line.rename ρ) := by
  unfold block
  rw [Table.get?_rename h hcallee]
  cases t.get? callee with
  | none => rfl
  | some r =>
    have hparameters : (r.rename ρ).parameters = r.parameters := rfl
    have hreturns : (r.rename ρ).returns = r.returns := rfl
    have hsummary : (r.rename ρ).summary = r.summary := rfl
    rw [Option.map_some]
    dsimp only
    rw [hparameters, hreturns, hsummary, List.map_cons, List.map_append]
    split <;> split <;> rfl

theorem blocks_rename (h : t.Separates ρ) (caller : String) {cs : List String}
    (hcs : ∀ c ∈ cs, c ∈ t.mentioned)
    : blocks (t.rename ρ) (ρ caller) (cs.map ρ) = (blocks t caller cs).map (Line.rename ρ) := by
  unfold blocks
  rw [List.flatMap_map, List.map_flatMap]
  apply List.flatMap_congr
  intro c hc
  apply block_rename h caller (hcs c hc)

theorem listed_rename (h : t.Separates ρ) (policy : Policy) {cs : List String}
    (hcs : ∀ c ∈ cs, c ∈ t.mentioned)
    : listed (t.rename ρ) policy (cs.map ρ)
        =
      ((listed t policy cs).1.map ρ, (listed t policy cs).2.rename ρ)
      := by
  induction cs with
  | nil => rfl
  | cons c cs ih =>
    rw [List.forall_mem_cons] at hcs
    rw [List.map_cons]
    unfold listed
    rw [Table.get?_rename h hcs.1, Option.isNone_map, ih hcs.2]
    split
    . rw [List.length_map]
      rfl
    . rfl

theorem otherBlocks_rename (h : t.Separates ρ) {main : Record} (hmain : main ∈ t.records)
    : otherBlocks (t.rename ρ) (ρ main.name) = (otherBlocks t main.name).map (Line.rename ρ) := by
  unfold otherBlocks
  rw [Table.records_rename h, List.filter_map, List.flatMap_map, List.map_flatMap]
  -- The main function is left out by its name, so another one must not get the same.
  have hfilter : t.records.filter ((fun r => r.name != ρ main.name) ∘ Record.rename ρ)
      = t.records.filter (·.name != main.name) := by
    apply List.filter_congr
    intro r hr
    have := Table.name_rename_beq h hr (Table.name_mem_mentioned hmain)
    rw [Function.comp_apply, bne, bne, this]
  rw [hfilter]
  apply List.flatMap_congr
  intro r hr
  apply blocks_rename h
  intro c hc
  apply Table.call_mem_mentioned (List.mem_of_mem_filter hr) hc

theorem buildFrom_rename (h : t.Separates ρ) (policy : Policy) {main : Record}
    (hmain : main ∈ t.records)
    : buildFrom (t.rename ρ) policy (main.rename ρ) = rename ρ (buildFrom t policy main) := by
  have hcalls : ∀ c ∈ main.calls, c ∈ t.mentioned := by
    intro c hc
    apply Table.call_mem_mentioned hmain hc
  have hlisted : ∀ c ∈ (listed t policy main.calls).1, c ∈ t.mentioned := by
    intro c hc
    rw [(listed_fst_eq_take t policy main.calls).1] at hc
    apply hcalls c (List.mem_of_mem_take hc)
  have hname : (main.rename ρ).name = ρ main.name := rfl
  have hmap : (main.rename ρ).calls = main.calls.map ρ := rfl
  unfold buildFrom rename
  rw [hname, hmap, listed_rename h policy hcalls, blocks_rename h _ hlisted, otherBlocks_rename h hmain,
    List.map_append]

/--
The diagram of a renamed table is the renamed diagram, and there is none only if there was none before.
-/
theorem build_rename (ρ : String → String) (t : Table) (h : t.Separates ρ) (policy : Policy)
    : build (t.rename ρ) policy = (build t policy).map (rename ρ) := by
  unfold build
  rw [selectMain_rename h]
  cases hmain : selectMain t with
  | error e => rfl
  | ok main =>
    have := buildFrom_rename h policy (mem_records_of_selectMain hmain)
    simp only [Except.map, this]

/--
The names of the two functions change places, so their alphabetical order turns around.
-/
def exchange (name : String) : String :=
  if name = "load" then "run" else if name = "run" then "load" else name ++ "2"

theorem build_rename_exchange
    : unresolved.Separates exchange ∧
        (build (unresolved.rename exchange) .truncate).map (fun d => (d.main, d.phase))
          = .ok ("load", .truncated "missing2" 3) ∧
        build (unresolved.rename exchange) .truncate
          =
        (build unresolved .truncate).map (rename exchange) := by
  have h : unresolved.Separates exchange := by decide
  exact ⟨h, by decide, build_rename exchange unresolved h .truncate⟩

end CallFlow.Diagram
