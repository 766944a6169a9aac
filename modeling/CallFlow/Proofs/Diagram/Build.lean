import CallFlow.Proofs.Diagram.Selection

/-!
This module contains what a policy does to the diagram of a table: where the list of the main function's
calls ends (`listed`), and which lines of the diagram go with the calls that are left out
(`build_truncate_cuts_keep`).
-/

namespace CallFlow.Diagram

open CallFlow.Functions

/--
How many calls of the main function are left out.
-/
def Phase.skipped : Phase → Nat
  | .complete => 0
  | .truncated _ skipped => skipped

theorem build_of_selectMain {t : Table} {main : Record} (h : selectMain t = .ok main)
    (policy : Policy) : build t policy = .ok (buildFrom t policy main) := by
  unfold build
  rw [h]
  rfl

theorem exists_build_eq_ok {t : Table} (h : t.isEmpty = false) (policy : Policy)
    : ∃ d, build t policy = .ok d := by
  rcases exists_selectMain t h with ⟨main, _, hmain⟩
  exact ⟨_, build_of_selectMain hmain policy⟩

theorem build_of_isEmpty {t : Table} (h : t.isEmpty = true) (policy : Policy)
    : build t policy = .error .noMainFunction := by
  unfold build
  rw [selectMain_of_isEmpty h]
  rfl

theorem exists_selectMain_of_build {t : Table} {policy : Policy} {d : Diagram}
    (h : build t policy = .ok d) : ∃ main, selectMain t = .ok main ∧ d = buildFrom t policy main := by
  unfold build at h
  cases hmain : selectMain t with
  | error e => simp [hmain, Except.map] at h
  | ok main =>
    rw [hmain] at h
    injection h with h
    exact ⟨main, rfl, h.symm⟩

theorem exists_of_build {t : Table} {policy : Policy} {d : Diagram} (h : build t policy = .ok d)
    : ∃ main ∈ t.records, d = buildFrom t policy main := by
  rcases exists_selectMain_of_build h with ⟨main, hmain, hd⟩
  exact ⟨main, mem_records_of_selectMain hmain, hd⟩

theorem listed_keep (t : Table) (cs : List String) : listed t .keep cs = (cs, .complete) := by
  induction cs with
  | nil => rfl
  | cons c cs ih => simp [listed, ih]

theorem listed_append_of_known (t : Table) (policy : Policy) (bs cs : List String)
    (h : ∀ b ∈ bs, b ∈ t.names)
    : listed t policy (bs ++ cs) = (bs ++ (listed t policy cs).1, (listed t policy cs).2) := by
  induction bs with
  | nil => rfl
  | cons b bs ih =>
    rw [List.forall_mem_cons] at h
    have : (t.get? b).isNone = false := by
      rw [Option.isNone_eq_false_iff, Table.isSome_get?_iff]
      exact h.1
    simp [listed, this, ih h.2]

theorem listed_truncate_of_unknown (t : Table) (c : String) (cs : List String) (h : c ∉ t.names)
    : listed t .truncate (c :: cs) = ([c], .truncated c cs.length) := by
  rw [← Table.get?_eq_none_iff] at h
  simp [listed, h]

theorem listed_fst_eq_take (t : Table) (policy : Policy) (cs : List String)
    : (listed t policy cs).1 = cs.take (cs.length - (listed t policy cs).2.skipped) ∧
        (listed t policy cs).2.skipped ≤ cs.length := by
  induction cs with
  | nil => exact ⟨rfl, Nat.le_refl _⟩
  | cons c cs ih =>
    rcases ih with ⟨htake, hle⟩
    unfold listed
    split
    . dsimp only [Phase.skipped]
      constructor
      . rw [List.length_cons, Nat.add_sub_cancel_left]
        rfl
      . simp
    . dsimp only
      constructor
      . rw [List.length_cons, Nat.succ_sub hle, List.take_succ_cons, ← htake]
      . rw [List.length_cons]
        omega

theorem blocks_append (t : Table) (caller : String) (bs cs : List String)
    : blocks t caller (bs ++ cs) = blocks t caller bs ++ blocks t caller cs := by
  unfold blocks
  apply List.flatMap_append

theorem block_of_unknown (t : Table) (caller callee : String) (h : callee ∉ t.names)
    : block t caller callee = [.call caller callee ""] := by
  rw [← Table.get?_eq_none_iff] at h
  simp [block, h]

theorem block_ne_nil (t : Table) (caller callee : String) : block t caller callee ≠ [] := by
  unfold block
  split <;> simp

theorem blocks_eq_nil_iff (t : Table) (caller : String) (cs : List String)
    : blocks t caller cs = [] ↔ cs = [] := by
  cases cs with
  | nil => simp [blocks]
  | cons c cs => simp [blocks, block_ne_nil]

/--
The call at index `i` is the first of a function that is not in the table.
-/
structure FirstUnknown (t : Table) (cs : List String) (i : Nat) (c : String) : Prop where
  getElem?_eq : cs[i]? = some c
  unknown : c ∉ t.names
  known : ∀ b ∈ cs.take i, b ∈ t.names

theorem exists_firstUnknown {t : Table} {cs : List String} (h : ¬∀ c ∈ cs, c ∈ t.names)
    : ∃ i c, FirstUnknown t cs i c := by
  induction cs with
  | nil => simp at h
  | cons c cs ih =>
    by_cases hc : c ∈ t.names
    . have : ¬∀ c ∈ cs, c ∈ t.names := by
        intro hcs
        apply h
        rw [List.forall_mem_cons]
        exact ⟨hc, hcs⟩
      rcases ih this with ⟨i, d, hd⟩
      refine ⟨i + 1, d, hd.getElem?_eq, hd.unknown, ?_⟩
      rw [List.take_succ_cons, List.forall_mem_cons]
      exact ⟨hc, hd.known⟩
    . exact ⟨0, c, rfl, hc, by simp⟩

theorem FirstUnknown.lt {t : Table} {cs : List String} {i : Nat} {c : String}
    (h : FirstUnknown t cs i c) : i < cs.length := by
  have := h.getElem?_eq
  rw [List.getElem?_eq_some_iff] at this
  exact this.1

theorem FirstUnknown.eq_append {t : Table} {cs : List String} {i : Nat} {c : String}
    (h : FirstUnknown t cs i c) : cs = cs.take i ++ c :: cs.drop (i + 1) := by
  apply eq_take_append_cons_drop
  exact h.getElem?_eq

theorem FirstUnknown.listed_truncate {t : Table} {cs : List String} {i : Nat} {c : String}
    (h : FirstUnknown t cs i c)
    : listed t .truncate cs = (cs.take i ++ [c], .truncated c (cs.length - i - 1)) := by
  have hlen : (cs.drop (i + 1)).length = cs.length - i - 1 := by
    rw [List.length_drop]
    omega
  rw [← hlen]
  conv => lhs; rw [h.eq_append]
  rw [listed_append_of_known t .truncate _ _ h.known, listed_truncate_of_unknown t c _ h.unknown]

theorem listed_snd_eq_complete_iff (t : Table) (policy : Policy) (cs : List String)
    : (listed t policy cs).2 = .complete ↔ ¬(policy = .truncate ∧ ∃ c ∈ cs, c ∉ t.names) := by
  cases policy with
  | keep => simp [listed_keep]
  | truncate =>
    by_cases hknown : ∀ c ∈ cs, c ∈ t.names
    . have := listed_append_of_known t .truncate cs [] hknown
      rw [List.append_nil] at this
      rw [this]
      simpa [listed] using hknown
    . rcases exists_firstUnknown hknown with ⟨i, c, hc⟩
      rw [hc.listed_truncate]
      simpa using hknown

/--
The call at index `i` ends the list of the main function's calls: the diagram `cut` is `kept` without the
lines of the later ones.
-/
structure CutBehind (t : Table) (main : Record) (i : Nat) (c : String) (kept cut : Diagram) : Prop where
  first : FirstUnknown t main.calls i c
  lt : i < main.callCount
  phase : cut.phase = .truncated c (main.callCount - i - 1)
  kept_lines : kept.lines
      =
    blocks t main.name (main.calls.take i) ++ [.call main.name c ""] ++
      blocks t main.name (main.calls.drop (i + 1)) ++ otherBlocks t main.name
  cut_lines : cut.lines
      =
    blocks t main.name (main.calls.take i) ++ [.call main.name c ""] ++ otherBlocks t main.name
  lines_eq_iff : cut.lines = kept.lines ↔ main.callCount - i - 1 = 0

theorem lines_buildFrom_keep (t : Table) (main : Record)
    : (buildFrom t .keep main).lines = blocks t main.name main.calls ++ otherBlocks t main.name := by
  unfold buildFrom
  rw [listed_keep]

theorem cutBehind_buildFrom {t : Table} {main : Record} {i : Nat} {c : String}
    (h : FirstUnknown t main.calls i c)
    : CutBehind t main i c (buildFrom t .keep main) (buildFrom t .truncate main) := by
  have hcall : blocks t main.name [c] = [.call main.name c ""] := by
    simp [blocks, block_of_unknown t main.name c h.unknown]
  have hkept : (buildFrom t .keep main).lines
      = blocks t main.name (main.calls.take i) ++ [.call main.name c ""] ++
          blocks t main.name (main.calls.drop (i + 1)) ++ otherBlocks t main.name := by
    rw [lines_buildFrom_keep, ← hcall, ← blocks_append, ← blocks_append]
    congr 2
    rw [List.append_assoc, List.singleton_append]
    exact h.eq_append
  have hcut : (buildFrom t .truncate main).lines
      = blocks t main.name (main.calls.take i) ++ [.call main.name c ""] ++
          otherBlocks t main.name := by
    unfold buildFrom
    rw [h.listed_truncate, blocks_append, hcall]
  refine ⟨h, h.lt, ?_, hkept, hcut, ?_⟩
  . unfold buildFrom
    rw [h.listed_truncate]
    rfl
  . -- The lines in between are none only if there are no later calls, as each has a line of its own.
    rw [hkept, hcut, List.append_left_inj, List.self_eq_append_right, blocks_eq_nil_iff,
      List.drop_eq_nil_iff]
    unfold Record.callCount
    omega

/--
Both policies give the diagrams of the same main function. They differ only if this function calls one
that is not in the table, by the lines of the main function's calls behind the first such call.
-/
theorem build_truncate_cuts_keep (t : Table) (h : t.isEmpty = false)
    : ∃ main kept cut,
        selectMain t = .ok main ∧
        build t .keep = .ok kept ∧
        build t .truncate = .ok cut ∧
        kept.main = main.name ∧
        cut.main = main.name ∧
        kept.phase = .complete ∧
        ((∀ c ∈ main.calls, c ∈ t.names) → cut = kept) ∧
        ((¬∀ c ∈ main.calls, c ∈ t.names) → ∃ i c, CutBehind t main i c kept cut) := by
  rcases exists_selectMain t h with ⟨main, _, hmain⟩
  refine ⟨main, buildFrom t .keep main, buildFrom t .truncate main, hmain,
    build_of_selectMain hmain .keep, build_of_selectMain hmain .truncate, rfl, rfl, ?_, ?_, ?_⟩
  . unfold buildFrom
    rw [listed_keep]
  . intro hknown
    have := listed_append_of_known t .truncate main.calls [] hknown
    rw [List.append_nil] at this
    unfold buildFrom
    rw [listed_keep, this]
    simp [listed]
  . intro hunknown
    rcases exists_firstUnknown hunknown with ⟨i, c, hc⟩
    exact ⟨i, c, cutBehind_buildFrom hc⟩

/--
The main function calls itself, a function with a note, and twice one that is not in the table.
-/
def unresolved : Table := .ofList [
  { name := "load", returns := .name "dict", summary := "Reads.", calls := ["open_file"] },
  { name := "run", parameters := [{ name := "n" }]
    calls := ["run", "load", "missing", "load", "missing", "run"] }
]

theorem build_truncate_cuts_keep_unresolved
    : unresolved.isEmpty = false ∧
        (build unresolved .truncate).map Diagram.phase = .ok (.truncated "missing" 3) ∧
        ∃ main kept cut,
          selectMain unresolved = .ok main ∧
          build unresolved .keep = .ok kept ∧
          build unresolved .truncate = .ok cut ∧
          (¬∀ c ∈ main.calls, c ∈ unresolved.names) ∧
          ∃ i c, CutBehind unresolved main i c kept cut := by
  have h : unresolved.isEmpty = false := by decide
  refine ⟨h, by decide, ?_⟩
  rcases build_truncate_cuts_keep unresolved h
    with ⟨main, kept, cut, hmain, hkept, hcut, _, _, _, _, hcuts⟩
  have hunknown : ¬∀ c ∈ main.calls, c ∈ unresolved.names := by
    have : (selectMain unresolved).map Record.calls
        = .ok ["run", "load", "missing", "load", "missing", "run"] := by decide
    rw [hmain] at this
    injection this with this
    rw [this]
    decide
  exact ⟨main, kept, cut, hmain, hkept, hcut, hunknown, hcuts hunknown⟩

end CallFlow.Diagram
