import Mathlib.Algebra.BigOperators.Group.List.Basic
import Mathlib.Algebra.GroupWithZero.Nat
import CallFlow.Proofs.Diagram.Build

/-!
This module contains which calls the lines of a diagram show. Each function of the table shows its own
calls in their order, and only the main function can lose some, at the end (`build_shows_calls`).
-/

namespace CallFlow.Diagram

open CallFlow.Functions

/--
The caller and the callee that a line shows.
-/
def Line.arrow? : Line → Option (String × String)
  | .call caller callee _ => some (caller, callee)
  | .reply _ _ _ => none
  | .note _ _ => none

def arrows (ls : List Line) : List (String × String) := ls.filterMap Line.arrow?

def calleesFrom (caller : String) (ls : List Line) : List String :=
  ((arrows ls).filter (·.1 == caller)).map Prod.snd

theorem arrows_append (ls ls' : List Line) : arrows (ls ++ ls') = arrows ls ++ arrows ls' := by
  unfold arrows
  apply List.filterMap_append

theorem arrows_block (t : Table) (caller callee : String)
    : arrows (block t caller callee) = [(caller, callee)] := by
  unfold block arrows
  split
  . rfl
  . -- Neither the reply nor the note shows a call.
    split <;> split <;> rfl

theorem arrows_blocks (t : Table) (caller : String) (cs : List String)
    : arrows (blocks t caller cs) = cs.map fun c => (caller, c) := by
  induction cs with
  | nil => rfl
  | cons c cs ih =>
    have : blocks t caller (c :: cs) = block t caller c ++ blocks t caller cs := rfl
    rw [this, arrows_append, arrows_block, ih]
    rfl

theorem arrows_otherBlocks (t : Table) (main : Record) (h : main ∈ t.records)
    : arrows (otherBlocks t main.name)
        =
      (t.records.erase main).flatMap fun r => r.calls.map fun c => (r.name, c)
      := by
  unfold otherBlocks
  rw [Table.filter_name_ne t main h]
  induction t.records.erase main with
  | nil => rfl
  | cons r rs ih => rw [List.flatMap_cons, List.flatMap_cons, arrows_append, arrows_blocks, ih]

theorem arrows_buildFrom (t : Table) (policy : Policy) (main : Record) (h : main ∈ t.records)
    : arrows (buildFrom t policy main).lines
        =
      ((main.calls.take (main.callCount - (buildFrom t policy main).phase.skipped)).map
          fun c => (main.name, c)) ++
        (t.records.erase main).flatMap fun r => r.calls.map fun c => (r.name, c)
      := by
  unfold buildFrom
  dsimp only
  rw [arrows_append, arrows_blocks, arrows_otherBlocks t main h, (listed_fst_eq_take t policy _).1]
  rfl

theorem calleesFrom_of_arrows {ls : List Line} {main : Record} {cs : List String} {rs : List Record}
    (h : arrows ls
        = (cs.map fun c => (main.name, c)) ++ rs.flatMap fun r => r.calls.map fun c => (r.name, c))
    (name : String)
    : calleesFrom name ls
        =
      (if main.name = name then cs else []) ++
        rs.flatMap fun r => if r.name = name then r.calls else []
      := by
  have hgroup : ∀ (caller : String) (cs : List String),
      ((cs.map fun c => (caller, c)).filter (·.1 == name)).map Prod.snd
        = if caller = name then cs else [] := by
    intro caller cs
    by_cases hcaller : caller = name
    . simp [hcaller, List.filter_map, Function.comp_def]
    . simp [hcaller, List.filter_map, Function.comp_def]
  unfold calleesFrom
  rw [h, List.filter_append, List.map_append, hgroup, List.filter_flatMap, List.map_flatMap]
  congr 1
  apply List.flatMap_congr
  intro r _
  apply hgroup

theorem flatMap_calls_of_not_mem (rs : List Record) (name : String)
    (h : name ∉ rs.map Record.name)
    : (rs.flatMap fun r => if r.name = name then r.calls else []) = [] := by
  rw [List.flatMap_eq_nil_iff]
  intro r hr
  rw [if_neg]
  intro heq
  apply h
  rw [← heq]
  apply List.mem_map_of_mem hr

theorem flatMap_calls_of_mem (rs : List Record) (hrs : (rs.map Record.name).Nodup) (r : Record)
    (h : r ∈ rs) : (rs.flatMap fun s => if s.name = r.name then s.calls else []) = r.calls := by
  induction rs with
  | nil => contradiction
  | cons s rs ih =>
    rw [List.map_cons, List.nodup_cons] at hrs
    rw [List.flatMap_cons]
    rw [List.mem_cons] at h
    cases h with
    | inl heq =>
      subst heq
      rw [if_pos rfl, flatMap_calls_of_not_mem rs r.name hrs.1, List.append_nil]
    | inr hmem =>
      have : s.name ≠ r.name := by
        intro heq
        apply hrs.1
        rw [heq]
        apply List.mem_map_of_mem hmem
      rw [if_neg this, List.nil_append]
      apply ih hrs.2 hmem

theorem name_not_mem_erase (t : Table) (r : Record) (h : r ∈ t.records)
    : r.name ∉ (t.records.erase r).map Record.name := by
  intro hmem
  rw [List.mem_map] at hmem
  rcases hmem with ⟨s, hs, heq⟩
  rw [t.nodup_records.mem_erase_iff] at hs
  apply hs.1
  apply Table.eq_of_name_eq hs.2 h heq

theorem nodup_names_erase (t : Table) (r : Record)
    : ((t.records.erase r).map Record.name).Nodup := by
  apply List.Nodup.sublist _ t.nodup
  apply List.Sublist.map
  apply List.erase_sublist

theorem length_arrows_add_skipped (t : Table) (policy : Policy) (main : Record)
    (h : main ∈ t.records)
    : (arrows (buildFrom t policy main).lines).length + (buildFrom t policy main).phase.skipped
        =
      (t.records.map Record.callCount).sum
      := by
  have hle : (buildFrom t policy main).phase.skipped ≤ main.callCount :=
    (listed_fst_eq_take t policy main.calls).2
  have hcalls : main.calls.length = main.callCount := rfl
  have hothers : ((t.records.erase main).flatMap fun r => r.calls.map fun c => (r.name, c)).length
      = ((t.records.erase main).map Record.callCount).sum := by
    rw [List.length_flatMap]
    simp only [List.length_map]
    rfl
  rw [arrows_buildFrom t policy main h, List.length_append, List.length_map, List.length_take, hothers,
    ← List.sum_map_erase Record.callCount h]
  omega

/--
Each function shows its calls in their order, the main function without those that the policy leaves
out. The main function comes first and the others in the order of the table.
-/
theorem build_shows_calls (t : Table) (policy : Policy) (h : t.isEmpty = false)
    : ∃ main d,
        selectMain t = .ok main ∧
        build t policy = .ok d ∧
        (∀ r ∈ t.records, r ≠ main → calleesFrom r.name d.lines = r.calls) ∧
        calleesFrom main.name d.lines = main.calls.take (main.callCount - d.phase.skipped) ∧
        (∀ a ∈ arrows d.lines, a.1 ∈ t.names) ∧
        arrows d.lines
          =
        ((main.calls.take (main.callCount - d.phase.skipped)).map fun c => (main.name, c)) ++
          ((t.records.erase main).flatMap fun r => r.calls.map fun c => (r.name, c)) ∧
        (arrows d.lines).length + d.phase.skipped = (t.records.map Record.callCount).sum := by
  rcases exists_selectMain t h with ⟨main, hmem, hmain⟩
  have harrows := arrows_buildFrom t policy main hmem
  refine ⟨main, buildFrom t policy main, hmain, build_of_selectMain hmain policy, ?_, ?_, ?_, harrows,
    ?_⟩
  . intro r hr hne
    have hr' : r ∈ t.records.erase main := by
      rw [t.nodup_records.mem_erase_iff]
      exact ⟨hne, hr⟩
    have hname : main.name ≠ r.name := by
      intro heq
      apply hne
      apply Table.eq_of_name_eq hr hmem heq.symm
    rw [calleesFrom_of_arrows harrows, if_neg hname, List.nil_append]
    apply flatMap_calls_of_mem _ (nodup_names_erase t main) r hr'
  . rw [calleesFrom_of_arrows harrows, if_pos rfl,
      flatMap_calls_of_not_mem _ _ (name_not_mem_erase t main hmem), List.append_nil]
  . intro a ha
    rw [harrows, List.mem_append, List.mem_map, List.mem_flatMap] at ha
    rcases ha with ⟨c, _, rfl⟩ | ⟨r, hr, ha⟩
    . apply List.mem_map_of_mem hmem
    . rw [List.mem_map] at ha
      rcases ha with ⟨c, _, rfl⟩
      apply List.mem_map_of_mem (List.mem_of_mem_erase hr)
  . apply length_arrows_add_skipped t policy main hmem

theorem build_shows_calls_unresolved
    : unresolved.isEmpty = false ∧
        (build unresolved .truncate).map (fun d => arrows d.lines)
          = .ok [("run", "run"), ("run", "load"), ("run", "missing"), ("load", "open_file")] ∧
        ∃ main d,
          selectMain unresolved = .ok main ∧
          build unresolved .truncate = .ok d ∧
          (∀ r ∈ unresolved.records, r ≠ main → calleesFrom r.name d.lines = r.calls) ∧
          calleesFrom main.name d.lines = main.calls.take (main.callCount - d.phase.skipped) ∧
          (arrows d.lines).length + d.phase.skipped = 7 := by
  have h : unresolved.isEmpty = false := by decide
  have hsum : (unresolved.records.map Record.callCount).sum = 7 := by decide
  refine ⟨h, by decide, ?_⟩
  rcases build_shows_calls unresolved .truncate h
    with ⟨main, d, hmain, hd, hothers, hcalls, _, _, hcount⟩
  rw [hsum] at hcount
  exact ⟨main, d, hmain, hd, hothers, hcalls, hcount⟩

end CallFlow.Diagram
