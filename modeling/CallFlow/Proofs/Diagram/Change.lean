import Mathlib.Data.List.Perm.Basic
import CallFlow.Proofs.Diagram.Arrows

/-!
This module contains what becomes of the diagram of a table that changes. Another order of the functions only
puts its lines into another order if all calls are kept (`build_keep_perm`), and one more function takes no
call away (`build_insert_keeps_arrows`).
-/

namespace CallFlow.Diagram

open CallFlow.Functions

section Order

variable {t u : Table}

theorem block_eq_of_perm (h : t.records.Perm u.records) : block t = block u := by
  funext caller callee
  unfold block
  rw [Table.get?_eq_of_perm h]

/--
The blocks of all functions, the main one in its place among the others.
-/
def allBlocks (t : Table) : List Line := t.records.flatMap fun r => blocks t r.name r.calls

theorem lines_buildFrom_keep_perm (t : Table) (main : Record) (h : main ∈ t.records)
    : (buildFrom t .keep main).lines.Perm (allBlocks t) := by
  rw [lines_buildFrom_keep]
  unfold otherBlocks
  rw [Table.filter_name_ne t main h]
  have := (List.perm_cons_erase h).flatMap_right fun r => blocks t r.name r.calls
  rw [List.flatMap_cons] at this
  exact this.symm

theorem allBlocks_perm (h : t.records.Perm u.records) : (allBlocks t).Perm (allBlocks u) := by
  unfold allBlocks blocks
  rw [block_eq_of_perm h]
  apply List.Perm.flatMap_right _ h

/--
In whatever order a table has its functions, the diagram that keeps all calls has the same lines equally
often.
-/
theorem build_keep_perm (t u : Table) (h : t.records.Perm u.records) (hempty : t.isEmpty = false)
    : ∃ d e,
        build t .keep = .ok d ∧
        build u .keep = .ok e ∧
        d.lines.Perm e.lines := by
  have hempty' : u.isEmpty = false := by
    rw [← hempty]
    unfold Table.isEmpty
    rw [h.isEmpty_eq]
  rcases exists_selectMain t hempty with ⟨main, hmem, hmain⟩
  rcases exists_selectMain u hempty' with ⟨main', hmem', hmain'⟩
  -- Which functions are the main ones does not matter, as the lines are those of all functions.
  refine ⟨_, _, build_of_selectMain hmain .keep, build_of_selectMain hmain' .keep, ?_⟩
  apply List.Perm.trans (lines_buildFrom_keep_perm t main hmem)
  apply List.Perm.trans (allBlocks_perm h)
  apply List.Perm.symm
  apply lines_buildFrom_keep_perm u main' hmem'

/--
Two functions with two calls each.
-/
def loadFirst : Table := .ofList [
  { name := "load", returns := .name "dict", calls := ["open_file", "load"] },
  { name := "run", summary := "Runs.", calls := ["load", "run"] }
]

def runFirst : Table := .ofList [
  { name := "run", summary := "Runs.", calls := ["load", "run"] },
  { name := "load", returns := .name "dict", calls := ["open_file", "load"] }
]

theorem build_keep_perm_tied
    : loadFirst.records.Perm runFirst.records ∧
        loadFirst.isEmpty = false ∧
        ∃ d e,
          build loadFirst .keep = .ok d ∧
          build runFirst .keep = .ok e ∧
          d = {
            main := "load"
            lines := [
              .call "load" "open_file" "", .call "load" "load" "", .reply "load" "load" "dict",
              .call "run" "load" "", .reply "run" "load" "dict", .call "run" "run" "", .note "run" "Runs."
            ]
            phase := .complete
          } ∧
          e = {
            main := "run"
            lines := [
              .call "run" "load" "", .reply "run" "load" "dict", .call "run" "run" "", .note "run" "Runs.",
              .call "load" "open_file" "", .call "load" "load" "", .reply "load" "load" "dict"
            ]
            phase := .complete
          } ∧
          d.lines.Perm e.lines := by
  have h : loadFirst.records.Perm runFirst.records := by decide
  have hempty : loadFirst.isEmpty = false := by decide
  rcases build_keep_perm loadFirst runFirst h hempty with ⟨d, e, hd, he, hlines⟩
  refine ⟨h, hempty, d, e, hd, he, ?_, ?_, hlines⟩
  . injection hd with hd
    rw [← hd]
    decide
  . injection he with he
    rw [← he]
    decide

end Order

section Insert

variable {t u : Table}

theorem skipped_listed_cons (t : Table) (policy : Policy) (c : String) (cs : List String)
    : (listed t policy (c :: cs)).2.skipped
        =
      if policy = .truncate ∧ c ∉ t.names then cs.length else (listed t policy cs).2.skipped
      := by
  have h : (t.get? c).isNone = true ↔ c ∉ t.names := by
    rw [Option.isNone_iff_eq_none, Table.get?_eq_none_iff]
  rw [listed]
  simp only [h]
  split <;> rfl

theorem skipped_listed_le (h : ∀ name ∈ t.names, name ∈ u.names) (policy : Policy)
    (cs : List String) : (listed u policy cs).2.skipped ≤ (listed t policy cs).2.skipped := by
  induction cs with
  | nil => exact Nat.le_refl _
  | cons c cs ih =>
    rw [skipped_listed_cons, skipped_listed_cons]
    split
    . next hu =>
      have : policy = .truncate ∧ c ∉ t.names := by
        refine ⟨hu.1, ?_⟩
        intro hc
        apply hu.2 (h c hc)
      simp [this]
    . split
      . -- The call has become known, so at most all of those behind it are left out.
        apply (listed_fst_eq_take u policy cs).2
      . exact ih

theorem selectMain_insert {main r : Record} (hmain : selectMain t = .ok main) (hr : r.name ∉ t.names)
    (hcount : r.callCount ≤ main.callCount) : selectMain (t.insert r) = .ok main := by
  rcases exists_firstMost_of_selectMain hmain with ⟨i, hfirst⟩
  apply FirstMost.selectMain_eq (i := i)
  rw [Table.records_insert_of_not_mem t r hr]
  apply hfirst.append_singleton_of_le hcount

theorem skipped_buildFrom_insert_le (t : Table) (policy : Policy) (main r : Record)
    : (buildFrom (t.insert r) policy main).phase.skipped ≤ (buildFrom t policy main).phase.skipped := by
  apply skipped_listed_le
  intro name hname
  rw [Table.mem_names_insert_iff]
  exact .inr hname

theorem arrows_buildFrom_insert {main r : Record} (hmain : main ∈ t.records) (hr : r.name ∉ t.names)
    (policy : Policy)
    : (arrows (buildFrom t policy main).lines).Sublist
        (arrows (buildFrom (t.insert r) policy main).lines) := by
  have hrecords := Table.records_insert_of_not_mem t r hr
  have hmain' : main ∈ (t.insert r).records := by
    rw [hrecords]
    apply List.mem_append_left _ hmain
  have hskipped := skipped_buildFrom_insert_le t policy main r
  rw [arrows_buildFrom t policy main hmain, arrows_buildFrom (t.insert r) policy main hmain', hrecords,
    List.erase_append_left _ hmain, List.flatMap_append]
  apply List.Sublist.append
  . apply List.Sublist.map
    apply List.take_sublist_take_left
    omega
  . apply List.sublist_append_left

/--
A function that is new to a table and has no more calls than the main one does not take its place. All calls
that were shown are still shown, in their order, and no more of the main function's calls are left out.
-/
theorem build_insert_keeps_arrows (t : Table) (policy : Policy) (main r : Record)
    (hmain : selectMain t = .ok main) (hr : r.name ∉ t.names) (hcount : r.callCount ≤ main.callCount)
    : selectMain (t.insert r) = .ok main ∧
        ∃ d d',
          build t policy = .ok d ∧
          build (t.insert r) policy = .ok d' ∧
          (arrows d.lines).Sublist (arrows d'.lines) ∧
          d'.phase.skipped ≤ d.phase.skipped := by
  have hmain' := selectMain_insert hmain hr hcount
  refine ⟨hmain', _, _, build_of_selectMain hmain policy, build_of_selectMain hmain' policy, ?_, ?_⟩
  . apply arrows_buildFrom_insert (mem_records_of_selectMain hmain) hr
  . apply skipped_buildFrom_insert_le

/--
The function that the main one of `unresolved` calls and that is not there.
-/
def missing : Record := { name := "missing", parameters := [{ name := "n" }], calls := ["load"] }

theorem build_insert_keeps_arrows_missing
    : ∃ main d d',
        selectMain unresolved = .ok main ∧
        missing.name ∉ unresolved.names ∧
        missing.callCount ≤ main.callCount ∧
        selectMain (unresolved.insert missing) = .ok main ∧
        build unresolved .truncate = .ok d ∧
        build (unresolved.insert missing) .truncate = .ok d' ∧
        d.phase.skipped = 3 ∧
        d'.phase.skipped = 0 ∧
        arrows d.lines = [("run", "run"), ("run", "load"), ("run", "missing"), ("load", "open_file")] ∧
        arrows d'.lines = [
          ("run", "run"), ("run", "load"), ("run", "missing"), ("run", "load"), ("run", "missing"),
          ("run", "run"), ("load", "open_file"), ("missing", "load")
        ] ∧
        (arrows d.lines).Sublist (arrows d'.lines) ∧
        d'.phase.skipped ≤ d.phase.skipped := by
  have hempty : unresolved.isEmpty = false := by decide
  have hname : missing.name ∉ unresolved.names := by decide
  have hcount : (selectMain unresolved).map (fun main => decide (missing.callCount ≤ main.callCount))
      = .ok true := by decide
  rcases exists_selectMain unresolved hempty with ⟨main, _, hmain⟩
  rw [hmain] at hcount
  injection hcount with hcount
  have hle := of_decide_eq_true hcount
  rcases build_insert_keeps_arrows unresolved .truncate main missing hmain hname hle
    with ⟨hmain', d, d', hd, hd', harrows, hskipped⟩
  have hlines : (build unresolved .truncate).map (fun d => (d.phase.skipped, arrows d.lines))
      = .ok (3, [("run", "run"), ("run", "load"), ("run", "missing"), ("load", "open_file")]) := by decide
  have hlines' : (build (unresolved.insert missing) .truncate).map
        (fun d => (d.phase.skipped, arrows d.lines))
      = .ok (0, [
          ("run", "run"), ("run", "load"), ("run", "missing"), ("run", "load"), ("run", "missing"),
          ("run", "run"), ("load", "open_file"), ("missing", "load")
        ]) := by decide
  rw [hd] at hlines
  rw [hd'] at hlines'
  injection hlines with hlines
  injection hlines' with hlines'
  rcases Prod.mk.inj hlines with ⟨hcut, hd₁⟩
  rcases Prod.mk.inj hlines' with ⟨hall, hd₂⟩
  exact ⟨main, d, d', hmain, hname, hle, hmain', hd, hd', hcut, hall, hd₁, hd₂, harrows, hskipped⟩

end Insert

end CallFlow.Diagram
