import Mathlib.Data.List.Forall2
import Mathlib.Data.List.SplitBy
import CallFlow.Proofs.Diagram.Arrows

/-!
This module contains that the lines of a diagram are the blocks of its calls, one after the other. What a
block holds (`BlockOf`) depends on the two functions of its call alone, not on the place of the call in the
diagram (`build_in_blocks`).
-/

namespace CallFlow.Diagram

open CallFlow.Functions

/--
The one line, if it is to be shown, and else none.
-/
def ShownIf (p : Prop) (l : Line) (ls : List Line) : Prop := (p ∧ ls = [l]) ∨ (¬p ∧ ls = [])

/--
The lines of one call. Behind the call itself stand what the called function returns and what it is for, as
far as the table has the function and something to show of it.
-/
inductive BlockOf (t : Table) (caller callee : String) : List Line → Prop where
  | unknown (h : callee ∉ t.names) : BlockOf t caller callee [.call caller callee ""]
  | known (r : Record) (replies notes : List Line) (hmem : r ∈ t.records) (hname : r.name = callee)
      (hreplies : ShownIf (r.returns.isRendered = true) (.reply caller callee r.returns.text) replies)
      (hnotes : ShownIf (r.summary ≠ "") (.note callee r.summary) notes)
      : BlockOf t caller callee
          (.call caller callee (renderParameters r.parameters) :: (replies ++ notes))

/--
The lines in groups. Each line that shows a call begins one.
-/
def cutAtCalls (ls : List Line) : List (List Line) := ls.splitBy fun _ l => l.arrow?.isNone

theorem shownIf_ite (p : Prop) [Decidable p] (l : Line) : ShownIf p l (if p then [l] else []) := by
  unfold ShownIf
  split
  . next h => exact .inl ⟨h, rfl⟩
  . next h => exact .inr ⟨h, rfl⟩

theorem blockOf_block (t : Table) (caller callee : String)
    : BlockOf t caller callee (block t caller callee) := by
  unfold block
  cases h : t.get? callee with
  | none =>
    apply BlockOf.unknown
    rw [← Table.get?_eq_none_iff]
    exact h
  | some r =>
    apply BlockOf.known r _ _ (Table.mem_records_of_get? h) (Table.name_of_get? h)
    . apply shownIf_ite
    . rw [← ite_not]
      apply shownIf_ite

theorem exists_block_eq_cons (t : Table) (caller callee : String)
    : ∃ parameters ls,
        block t caller callee = .call caller callee parameters :: ls ∧ ∀ l ∈ ls, l.arrow? = none := by
  have : ∃ parameters ls, block t caller callee = .call caller callee parameters :: ls := by
    unfold block
    split <;> exact ⟨_, _, rfl⟩
  rcases this with ⟨parameters, ls, heq⟩
  refine ⟨parameters, ls, heq, ?_⟩
  have hcall : (Line.call caller callee parameters).arrow? = some (caller, callee) := rfl
  have harrows := arrows_block t caller callee
  unfold arrows at harrows
  rw [heq, List.filterMap_cons_some hcall] at harrows
  injection harrows with _ harrows
  rw [List.filterMap_eq_nil_iff] at harrows
  exact harrows

theorem isChain_cons_of_forall {l : Line} {ls : List Line} (h : ∀ l' ∈ ls, l'.arrow? = none)
    : (l :: ls).IsChain fun _ l' => l'.arrow?.isNone = true := by
  induction ls generalizing l with
  | nil => simp
  | cons l' ls ih =>
    rw [List.forall_mem_cons] at h
    rw [List.isChain_cons_cons]
    constructor
    . rw [h.1]
      rfl
    . apply ih h.2

theorem cutAtCalls_flatMap_block (t : Table) (as : List (String × String))
    : cutAtCalls (as.flatMap fun a => block t a.1 a.2) = as.map fun a => block t a.1 a.2 := by
  unfold cutAtCalls
  rw [List.flatMap_def]
  apply List.splitBy_flatten
  . intro hmem
    rw [List.mem_map] at hmem
    rcases hmem with ⟨a, _, hnil⟩
    apply block_ne_nil t a.1 a.2 hnil
  . intro ls hls
    rw [List.mem_map] at hls
    rcases hls with ⟨a, _, rfl⟩
    rcases exists_block_eq_cons t a.1 a.2 with ⟨parameters, ls, heq, hothers⟩
    rw [heq]
    apply isChain_cons_of_forall hothers
  . -- A block begins with a call, whatever stands before it.
    rw [List.isChain_map]
    apply List.Pairwise.isChain
    apply List.pairwise_of_forall
    intro a b
    refine ⟨block_ne_nil t a.1 a.2, block_ne_nil t b.1 b.2, ?_⟩
    rcases exists_block_eq_cons t b.1 b.2 with ⟨parameters, ls, heq, _⟩
    simp [heq, Line.arrow?]

/--
The lines are the blocks of the calls that they show.
-/
def InBlocks (t : Table) (ls : List Line) : Prop :=
  ls = (arrows ls).flatMap fun a => block t a.1 a.2

theorem InBlocks.append {t : Table} {ls ls' : List Line} (h : InBlocks t ls) (h' : InBlocks t ls')
    : InBlocks t (ls ++ ls') := by
  unfold InBlocks
  rw [arrows_append, List.flatMap_append, ← h, ← h']

theorem inBlocks_flatMap {α : Type} {t : Table} (xs : List α) (f : α → List Line)
    (h : ∀ x ∈ xs, InBlocks t (f x)) : InBlocks t (xs.flatMap f) := by
  induction xs with
  | nil => rfl
  | cons x xs ih =>
    rw [List.forall_mem_cons] at h
    rw [List.flatMap_cons]
    apply InBlocks.append h.1 (ih h.2)

theorem inBlocks_block (t : Table) (caller callee : String)
    : InBlocks t (block t caller callee) := by
  unfold InBlocks
  rw [arrows_block, List.flatMap_singleton]

theorem inBlocks_blocks (t : Table) (caller : String) (cs : List String)
    : InBlocks t (blocks t caller cs) := by
  apply inBlocks_flatMap
  intro c _
  apply inBlocks_block

theorem inBlocks_otherBlocks (t : Table) (main : String) : InBlocks t (otherBlocks t main) := by
  apply inBlocks_flatMap
  intro r _
  apply inBlocks_blocks

theorem inBlocks_buildFrom (t : Table) (policy : Policy) (main : Record)
    : InBlocks t (buildFrom t policy main).lines := by
  apply InBlocks.append
  . apply inBlocks_blocks
  . apply inBlocks_otherBlocks

theorem InBlocks.cutAtCalls_eq {t : Table} {ls : List Line} (h : InBlocks t ls)
    : cutAtCalls ls = (arrows ls).map fun a => block t a.1 a.2 := by
  conv => lhs; rw [h]
  apply cutAtCalls_flatMap_block

/--
Cut before each of its calls, a diagram falls into the blocks of these calls. Two calls of the same function
by the same function have the same block, wherever they stand.
-/
theorem build_in_blocks (t : Table) (policy : Policy) (h : t.isEmpty = false)
    : ∃ d,
        build t policy = .ok d ∧
        (cutAtCalls d.lines).flatten = d.lines ∧
        List.Forall₂ (fun a ls => BlockOf t a.1 a.2 ls) (arrows d.lines) (cutAtCalls d.lines) ∧
        ∀ i j : Nat,
          (arrows d.lines)[i]? = (arrows d.lines)[j]? →
          (cutAtCalls d.lines)[i]? = (cutAtCalls d.lines)[j]? := by
  rcases exists_selectMain t h with ⟨main, _, hmain⟩
  have hcut := (inBlocks_buildFrom t policy main).cutAtCalls_eq
  refine ⟨buildFrom t policy main, build_of_selectMain hmain policy, List.flatten_splitBy _ _, ?_, ?_⟩
  . rw [hcut, List.forall₂_map_right_iff, List.forall₂_same]
    intro a _
    apply blockOf_block
  . intro i j hij
    rw [hcut, List.getElem?_map, List.getElem?_map, hij]

theorem build_in_blocks_unresolved
    : unresolved.isEmpty = false ∧
        ∃ d,
          build unresolved .keep = .ok d ∧
          (cutAtCalls d.lines).flatten = d.lines ∧
          List.Forall₂ (fun a ls => BlockOf unresolved a.1 a.2 ls) (arrows d.lines)
            (cutAtCalls d.lines) ∧
          (arrows d.lines)[1]? = some ("run", "load") ∧
          (arrows d.lines)[3]? = some ("run", "load") ∧
          (cutAtCalls d.lines)[1]?
            =
          some [.call "run" "load" "", .reply "run" "load" "dict", .note "load" "Reads."] ∧
          (cutAtCalls d.lines)[3]? = (cutAtCalls d.lines)[1]? := by
  have h : unresolved.isEmpty = false := by decide
  refine ⟨h, ?_⟩
  rcases build_in_blocks unresolved .keep h with ⟨d, hd, hflatten, hblocks, hsame⟩
  have hd' : build unresolved .keep = .ok (buildFrom unresolved .keep
      { name := "run", parameters := [{ name := "n" }]
        calls := ["run", "load", "missing", "load", "missing", "run"] }) := by decide
  have heq := hd
  rw [hd'] at heq
  injection heq with heq
  have h1 : (arrows d.lines)[1]? = some ("run", "load") := by rw [← heq]; decide
  have h3 : (arrows d.lines)[3]? = some ("run", "load") := by rw [← heq]; decide
  have hcut : (cutAtCalls d.lines)[1]?
      = some [.call "run" "load" "", .reply "run" "load" "dict", .note "load" "Reads."] := by
    rw [← heq]
    decide
  exact ⟨d, hd, hflatten, hblocks, h1, h3, hcut, hsame 3 1 (h3.trans h1.symm)⟩

end CallFlow.Diagram
