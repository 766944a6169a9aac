import CallFlow.Automaton.Modes
import CallFlow.Proofs.Automaton.State

/-!
This module contains that the rows of an automaton have actions for tokens and for the end only, and reduce to
symbols of the grammar only, from the states that are built (`fits_ofState`) to the finished table
(`fits_ofGrammar`).
-/

namespace CallFlow.Automaton

open CallFlow.Grammar

section

variable {α β : Type} {P : α → Prop} {as : Array α}

theorem size_foldl_setIfInBounds (index : β → Nat) (value : β → α) (xs : List β) (as : Array α)
    : (xs.foldl (fun as x => as.setIfInBounds (index x) (value x)) as).size = as.size := by
  induction xs generalizing as with
  | nil => rfl
  | cons x xs ih => rw [List.foldl_cons, ih, Array.size_setIfInBounds]

theorem forall_mem_foldl_setIfInBounds (index : β → Nat) {value : β → α} {xs : List β} (h : ∀ a ∈ as, P a)
    (hxs : ∀ x ∈ xs, P (value x))
    : ∀ a ∈ xs.foldl (fun as x => as.setIfInBounds (index x) (value x)) as, P a := by
  apply List.foldlRecOn (motive := fun as : Array α => ∀ a ∈ as, P a) _ _ h
  intro as has x hx a ha
  rcases Array.mem_or_eq_of_mem_setIfInBounds ha with ha | rfl
  . exact has a ha
  . exact hxs x hx

end

namespace Row

/--
A row has no actions for variables, and what it reduces to is a symbol of the grammar.
-/
structure Fits (n : Numbering) (r : Row) : Prop where
  size_le : r.actions.size ≤ n.firstRule
  reduces : ∀ as ∈ r.actions, Reduces n as

variable {n : Numbering} {r s : Row}

theorem fits_ofState {s : State} (h : ∀ x ∈ s.actions, Reduces n x.2) : Fits n (ofState n s) := by
  unfold ofState
  dsimp only
  rw [← Array.foldl_toList]
  constructor
  . exact Nat.le_of_eq ((size_foldl_setIfInBounds Prod.fst Prod.snd _ _).trans Array.size_replicate)
  . apply forall_mem_foldl_setIfInBounds (P := Reduces n) Prod.fst
    . intro as has
      rw [Array.eq_of_mem_replicate has]
      exact reduces_empty n
    . intro x hx
      exact h x (Array.mem_toList_iff.mp hx)

theorem Fits.mapTargets (h : Fits n r) (f : Nat → Nat) : Fits n (r.mapTargets f) := by
  unfold Row.mapTargets
  constructor
  . dsimp only
    rw [Array.size_map]
    exact h.size_le
  . intro as has red hred
    rcases Array.mem_map.mp has with ⟨bs, hbs, rfl⟩
    rcases Array.mem_map.mp hred with ⟨b, hb, heq⟩
    cases b with
    | reduce red' =>
      injection heq with heq
      rw [← heq]
      exact h.reduces bs hbs red' hb
    | shift q rep => contradiction
    | shiftExtra => contradiction
    | accept => contradiction
    | recover => contradiction

theorem Fits.union (h : Fits n r) (h' : Fits n s) : Fits n (r.union s) := by
  unfold Row.union
  constructor
  . dsimp only
    rw [Array.size_zipWith]
    exact Nat.le_trans (Nat.min_le_left _ _) h.size_le
  . intro as has
    rcases Array.mem_iff_getElem?.mp has with ⟨i, hi⟩
    rw [Array.getElem?_zipWith] at hi
    split at hi
    . next a b ha hb =>
      rw [← Option.some.inj hi]
      split
      . exact h.reduces a (Array.mem_of_getElem? ha)
      . exact h'.reduces b (Array.mem_of_getElem? hb)
    . contradiction

theorem Fits.errorRow (h : Fits n r) (info : TokenInfo) (g : Productions) : Fits n (info.errorRow g r) := by
  unfold TokenInfo.errorRow
  constructor
  . exact Nat.le_trans (Nat.le_of_eq (size_foldl_setIfInBounds id (fun _ => #[Action.recover]) _ _)) h.size_le
  . apply forall_mem_foldl_setIfInBounds id h.reduces
    intro c _
    exact reduces_singleton fun red hred => Action.noConfusion hred

theorem fits_default (n : Numbering) : Fits n default := by
  constructor
  . exact Nat.zero_le _
  . intro as has
    exact absurd has (Array.not_mem_empty as)

theorem Fits.getD {rows : Array Row} (h : ∀ r ∈ rows, Fits n r) (i : Nat)
    : Fits n (rows.getD i default) := by
  rw [Array.getD_eq_getD_getElem?]
  cases hi : rows[i]? with
  | none => exact fits_default n
  | some r => exact h r (Array.mem_of_getElem? hi)

end Row

variable {n : Numbering} {rows : Array Row}

theorem fits_merged (p : Partition) (h : ∀ r ∈ rows, r.Fits n) : ∀ r ∈ p.merged rows, r.Fits n := by
  intro r hr
  unfold Partition.merged at hr
  rw [Array.mem_filterMap] at hr
  rcases hr with ⟨group, _, hr⟩
  split at hr
  . contradiction
  . next i rest _ =>
    rw [← Option.some.inj hr]
    apply Row.Fits.mapTargets
    apply List.foldlRecOn (motive := Row.Fits n) rest _ (Row.Fits.getD h i)
    intro s hs j _
    exact hs.union (Row.Fits.getD h j)

theorem fits_dropUnused (h : ∀ r ∈ rows, r.Fits n) : ∀ r ∈ dropUnused rows, r.Fits n := by
  intro r hr
  unfold dropUnused at hr
  rw [Array.mem_map] at hr
  rcases hr with ⟨s, hs, rfl⟩
  rw [Array.mem_filterMap] at hs
  rcases hs with ⟨⟨x, i⟩, hx, hs⟩
  dsimp only at hs
  split at hs
  . rw [← Option.some.inj hs]
    exact (h x (Array.mem_of_getElem? (Array.mem_zipIdx_iff_getElem?.mp hx))).mapTargets _
  . contradiction

theorem fits_sortBySize (h : ∀ r ∈ rows, r.Fits n) : ∀ r ∈ sortBySize rows, r.Fits n := by
  intro r hr
  unfold sortBySize at hr
  rw [List.mem_toArray, List.mem_map] at hr
  rcases hr with ⟨i, _, rfl⟩
  exact (Row.Fits.getD h i).mapTargets _

theorem fits_mergeRows (rules : TokenRules) (g : Productions) (h : ∀ r ∈ rows, r.Fits n)
    : ∀ r ∈ mergeRows rules g rows, r.Fits n := by
  unfold mergeRows
  apply fits_sortBySize
  apply fits_dropUnused
  intro r hr
  rw [Array.mem_map] at hr
  rcases hr with ⟨s, hs, rfl⟩
  exact (fits_merged _ h s hs).mapTargets _

theorem size_additions_ofProductions (g : Productions)
    : (Context.ofProductions g).additions.size = (Context.ofProductions g).numbering.vars := by
  unfold Context.ofProductions
  dsimp only
  rw [Array.size_map, Array.size_range]
  rfl

theorem fits_ofGrammar (grammar : Grammar)
    : ∀ r ∈ (ofGrammar grammar).rows, r.Fits (ofGrammar grammar).numbering := by
  have hctx := size_additions_ofProductions (Productions.ofGrammar grammar)
  unfold ofGrammar
  dsimp only
  generalize Context.ofProductions (Productions.ofGrammar grammar) = ctx at hctx ⊢
  have hstates : ∀ r ∈ (Builder.ofContext ctx).states.map (Row.ofState ctx.numbering),
      r.Fits ctx.numbering := by
    intro r hr
    rw [Array.mem_map] at hr
    rcases hr with ⟨s, hs, rfl⟩
    rcases Array.mem_iff_getElem?.mp hs with ⟨i, hi⟩
    exact Row.fits_ofState (Builder.built_ofContext hctx i s hi).reduces
  apply fits_mergeRows
  exact forall_mem_modify hstates (fun r hr => hr.errorRow _ _) 0

end CallFlow.Automaton
