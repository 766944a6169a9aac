import CallFlow.Automaton.State
import Std.Data.HashMap.Lemmas

/-!
This module contains how the states of an automaton are built (`built_ofContext`): they reduce to symbols of the
grammar only, and the first one of them, to which nothing leads, takes nothing but extra tokens and has a core of
its own.
-/

namespace CallFlow.Automaton

open CallFlow.Grammar

theorem forall_mem_modify {α : Type} {P : α → Prop} {as : Array α} {f : α → α} (h : ∀ a ∈ as, P a)
    (hf : ∀ a, P a → P (f a)) (i : Nat) : ∀ a ∈ as.modify i f, P a := by
  intro a ha
  rcases Array.mem_iff_getElem?.mp ha with ⟨j, hj⟩
  rw [Array.getElem?_modify] at hj
  split at hj
  . rcases Option.map_eq_some_iff.mp hj with ⟨b, hb, rfl⟩
    exact hf b (h b (Array.mem_of_getElem? hb))
  . exact h a (Array.mem_of_getElem? hj)

theorem Numbering.stop_lt_total (n : Numbering) : n.stop < n.total :=
  Nat.lt_of_lt_of_le (Nat.lt_succ_self n.externals)
    (Nat.le_trans (Nat.le_add_right _ _) (Nat.le_add_right _ _))

/-! Reductions. -/

/--
What is reduced to is a symbol of the grammar.
-/
def Reduces (n : Numbering) (as : Array Action) : Prop :=
  ∀ red, Action.reduce red ∈ as → red.symbol < n.total

variable {n : Numbering} {as : Array Action} {a : Action} {ctx : Context}

theorem reduces_empty (n : Numbering) : Reduces n #[] := fun _ hred => absurd hred (Array.not_mem_empty _)

theorem reduces_singleton (h : ∀ red, a = .reduce red → red.symbol < n.total) : Reduces n #[a] := by
  intro red hred
  rw [List.mem_toArray, List.mem_singleton] at hred
  exact h red hred.symm

theorem Reduces.push (h : Reduces n as) (ha : Reduces n #[a]) : Reduces n (as.push a) := by
  intro red hred
  rcases Array.mem_push.mp hred with hred | rfl
  . exact h red hred
  . exact ha red (List.mem_toArray.mpr List.mem_cons_self)

namespace Cell

theorem actions_noteAssoc (c : Cell) (assoc : Option Assoc) : (c.noteAssoc assoc).actions = c.actions := by
  cases assoc with
  | none => rfl
  | some assoc =>
    cases assoc with
    | left => rfl
    | right => rfl

theorem reduces_add {c : Cell} (h : Reduces n c.actions) (ha : Reduces n #[a]) (prec : Int)
    (assoc : Option Assoc) : Reduces n (c.add a prec assoc).actions := by
  unfold add
  split
  . rw [actions_noteAssoc]
    exact ha
  . split
    . rw [actions_noteAssoc]
      exact ha
    . split
      . rw [actions_noteAssoc]
        exact h.push ha
      . exact h

end Cell

namespace Context

theorem reduces_finish (hctx : ctx.additions.size = ctx.numbering.vars) (it : Item)
    : Reduces ctx.numbering #[ctx.finish it] := by
  apply reduces_singleton
  intro red hred
  unfold finish at hred
  split at hred
  . next hlt =>
    rw [hctx] at hlt
    injection hred with hred
    rw [← hred]
    exact Nat.add_lt_add_left hlt _
  . contradiction

theorem reduces_cells (hctx : ctx.additions.size = ctx.numbering.vars) (items : Array Lookahead)
    : ∀ c ∈ ctx.cells items, Reduces ctx.numbering c.actions := by
  unfold cells
  rw [← Array.foldl_toList]
  apply List.foldlRecOn (motive := fun cells : Array Cell => ∀ c ∈ cells, Reduces ctx.numbering c.actions)
  . intro c hc
    rw [Array.eq_of_mem_replicate hc]
    exact reduces_empty ctx.numbering
  . intro cells hcells l _
    dsimp only
    split
    . apply List.foldlRecOn (motive := fun cells : Array Cell =>
        ∀ c ∈ cells, Reduces ctx.numbering c.actions) _ _ hcells
      intro cells hcells t _
      split
      . apply forall_mem_modify hcells
        intro c hc
        exact Cell.reduces_add hc (reduces_finish hctx _) _ _
      . exact hcells
    . exact hcells

theorem reduces_settle (items : Array Lookahead) (t : SymCode) {cell : Cell} (target : Nat)
    (h : Reduces n cell.actions) : Reduces n (ctx.settle items t cell target) := by
  have hshift (isRepetition : Bool) : Reduces n #[.shift target isRepetition] := by
    apply reduces_singleton
    intro red hred
    contradiction
  unfold settle
  dsimp only
  split
  . exact h.push (hshift false)
  . split
    . exact h.push (hshift true)
    . split
      . exact hshift false
      . split
        . exact h
        . split
          . exact h.push (hshift false)
          . split
            . exact h
            . split
              . exact hshift false
              . exact h.push (hshift false)

end Context

/-! The first state. -/

/--
Nothing is done with a token but to read it as an extra one.
-/
def Idle (as : Array Action) : Prop := ∀ a ∈ as, a = .shiftExtra ∨ a = .recover

namespace Builder

/--
The first kernel is empty, and has a core of its own.
-/
structure Begun (b : Builder) : Prop where
  size_eq : b.coreOf.size = b.kernels.size
  size_pos : 0 < b.kernels.size
  kernels : ∀ k, b.kernels[0]? = some k → k = #[]
  cores_pos : 0 < b.cores.size
  cores : ∀ (key : Array Nat) c, b.cores[key]? = some c → key ≠ #[] → c ≠ 0
  coreOf : ∀ i c, b.coreOf[i]? = some c → (c = 0 ↔ i = 0)

/--
Kernels are added, and no states.
-/
structure Extends (b b' : Builder) : Prop where
  begun : b'.Begun
  size_le : b.kernels.size ≤ b'.kernels.size
  states_eq : b'.states = b.states

/--
How a state is built: what is reduced to is a symbol of the grammar, and the first state leads nowhere.
-/
structure Built (n : Numbering) (i : Nat) (s : State) : Prop where
  reduces : ∀ x ∈ s.actions, Reduces n x.2
  core : s.core = 0 ↔ i = 0
  idle : i = 0 → ∀ x ∈ s.actions, Idle x.2
  gotos : i = 0 → s.gotos = #[]

variable {b b' b'' : Builder}

namespace Extends

theorem refl (h : b.Begun) : Extends b b := ⟨h, Nat.le_refl _, rfl⟩

theorem trans (h : Extends b b') (h' : Extends b' b'') : Extends b b'' :=
  ⟨h'.begun, Nat.le_trans h.size_le h'.size_le, h'.states_eq.trans h.states_eq⟩

end Extends

theorem extends_stateOf (h : b.Begun) {kernel : Array Lookahead} (hne : kernel ≠ #[])
    : Extends b (b.stateOf kernel).1 := by
  have hkey : kernel.map (·.item) ≠ #[] := fun heq => hne (Array.map_eq_empty_iff.mp heq)
  have hpush (cores : Std.HashMap (Array Nat) Nat) (core : Nat) (hpos : 0 < cores.size)
      (hcores : ∀ (key : Array Nat) c, cores[key]? = some c → key ≠ #[] → c ≠ 0) (hcore : core ≠ 0)
      : Extends b { b with
          kernels := b.kernels.push kernel
          ids := b.ids.insert ⟨kernel⟩ b.kernels.size
          cores, coreOf := b.coreOf.push core } := by
    have hsize := h.size_eq
    have hlt := h.size_pos
    refine ⟨⟨?_, ?_, ?_, hpos, hcores, ?_⟩, ?_, rfl⟩
    . rw [Array.size_push, Array.size_push, hsize]
    . rw [Array.size_push]
      omega
    . intro k hk
      rw [Array.getElem?_push, if_neg (Nat.ne_of_lt hlt)] at hk
      exact h.kernels k hk
    . intro i c hc
      rw [Array.getElem?_push] at hc
      split at hc
      . rw [← Option.some.inj hc]
        exact iff_of_false hcore (by omega)
      . exact h.coreOf i c hc
    . rw [Array.size_push]
      omega
  unfold stateOf
  split
  . exact Extends.refl h
  . dsimp only
    cases hcore : b.cores[kernel.map (·.item)]? with
    | some core =>
      exact hpush b.cores core h.cores_pos h.cores (h.cores _ core hcore hkey)
    | none =>
      have hpos := h.cores_pos
      apply hpush
      . exact Nat.lt_of_lt_of_le hpos Std.HashMap.size_le_size_insert
      . intro key c hc hne
        rw [Std.HashMap.getElem?_insert] at hc
        split at hc
        . rw [← Option.some.inj hc]
          exact Nat.ne_of_gt hpos
        . exact h.cores key c hc hne
      . exact Nat.ne_of_gt hpos

end Builder

namespace Context

theorem normalize_ne_empty {kernel : Array Lookahead} (h : kernel ≠ #[]) : normalize kernel ≠ #[] := by
  unfold normalize
  split
  . exact h
  . next hsize =>
    have hsorted : (kernel.toList.mergeSort fun a b => a.item ≤ b.item) ≠ [] := by
      rw [← List.length_pos_iff, List.length_mergeSort, Array.length_toList]
      omega
    rcases List.exists_cons_of_ne_nil hsorted with ⟨first, rest, hcons⟩
    rw [hcons, List.foldl_cons]
    apply List.foldlRecOn (motive := fun acc : Array Lookahead => acc ≠ #[])
    . exact Array.push_ne_empty
    . intro acc _ l _
      split
      . split
        . exact Array.push_ne_empty
        . exact Array.push_ne_empty
      . exact Array.push_ne_empty

theorem closure_empty (ctx : Context) : ctx.closure #[] = #[] := by
  unfold closure
  dsimp only
  rw [← Array.foldl_toList]
  apply List.foldlRecOn (motive := fun acc : Array Lookahead × Nat => acc.1 = #[])
  . rfl
  . intro acc hacc m hm
    have hzero : m = 0 := Array.eq_of_mem_replicate (Array.mem_toList_iff.mp hm)
    rw [hzero]
    exact hacc

theorem isEmpty_of_mem_successors (ctx : Context) {next : Array Lookahead}
    (h : next ∈ ctx.successors #[]) : next.isEmpty := by
  have hnext : next = #[] := Array.eq_of_mem_replicate h
  rw [hnext]
  rfl

theorem reduces_entry {cell : Cell} (h : Reduces n cell.actions) (items : Array Lookahead)
    (target : Option Nat) (t : SymCode) : Reduces n (ctx.entry items cell target t) := by
  have hother {a : Action} (h' : ∀ red, a ≠ .reduce red) : Reduces n #[a] :=
    reduces_singleton fun red hred => absurd hred (h' red)
  unfold entry
  split
  . exact hother fun _ => Action.noConfusion
  . split
    . exact h
    . split
      . exact hother fun _ => Action.noConfusion
      . exact reduces_settle items t _ h

theorem idle_entry (ctx : Context) (items : Array Lookahead) {cell : Cell} (hcell : cell.actions = #[])
    (t : SymCode) : Idle (ctx.entry items cell none t) := by
  unfold entry
  split
  . intro a ha
    rw [List.mem_toArray, List.mem_singleton] at ha
    exact .inl ha
  . intro a ha
    rw [hcell] at ha
    exact absurd ha (Array.not_mem_empty a)

theorem reduces_state (hctx : ctx.additions.size = ctx.numbering.vars) (items : Array Lookahead)
    (targets : Array (Option Nat)) (core : Nat)
    : ∀ x ∈ (ctx.state items targets core).actions, Reduces ctx.numbering x.2 := by
  intro x hx
  unfold state at hx
  rw [Array.mem_filterMap] at hx
  rcases hx with ⟨t, _, hx⟩
  dsimp only at hx
  split at hx
  . contradiction
  . rw [← Option.some.inj hx]
    apply reduces_entry
    rw [Array.getD_eq_getD_getElem?]
    cases hc : (ctx.cells items)[t]? with
    | none => exact reduces_empty ctx.numbering
    | some c => exact reduces_cells hctx items c (Array.mem_of_getElem? hc)

theorem actions_cells_empty (ctx : Context) (t : SymCode) : ((ctx.cells #[]).getD t {}).actions = #[] := by
  rw [Array.getD_eq_getD_getElem?]
  cases hc : (ctx.cells #[])[t]? with
  | none => rfl
  | some c =>
    have hcell : c = {} := Array.eq_of_mem_replicate (Array.mem_of_getElem? hc)
    rw [hcell]
    rfl

/--
A state without items that leads nowhere has nothing to do but for extra tokens.
-/
theorem idle_state (ctx : Context) {targets : Array (Option Nat)} (h : ∀ q ∈ targets, q = none) (core : Nat)
    : (∀ x ∈ (ctx.state #[] targets core).actions, Idle x.2) ∧ (ctx.state #[] targets core).gotos = #[] := by
  have hnone (i : Nat) : targets.getD i none = none := by
    rw [Array.getD_eq_getD_getElem?]
    cases hq : targets[i]? with
    | none => rfl
    | some q => exact h q (Array.mem_of_getElem? hq)
  unfold state
  dsimp only
  constructor
  . intro x hx
    rw [Array.mem_filterMap] at hx
    rcases hx with ⟨t, _, hx⟩
    rw [hnone] at hx
    split at hx
    . contradiction
    . rw [← Option.some.inj hx]
      exact idle_entry ctx #[] (actions_cells_empty ctx t) t
  . rw [Array.filterMap_eq_empty_iff]
    intro v _
    rw [hnone]
    rfl

end Context

namespace Builder

theorem extends_follow (h : b.Begun) (successors : Array (Array Lookahead))
    : Extends b (b.follow successors).1 := by
  unfold follow
  rw [← Array.foldl_toList]
  apply List.foldlRecOn (motive := fun acc : Builder × Array (Option Nat) => Extends b acc.1)
  . exact Extends.refl h
  . intro acc hacc next _
    split
    . exact hacc
    . next hne =>
      rw [Array.isEmpty_iff] at hne
      exact hacc.trans (extends_stateOf hacc.begun (Context.normalize_ne_empty hne))

/--
Where nothing is left to read no state is reached.
-/
theorem eq_none_of_mem_follow (b : Builder) {successors : Array (Array Lookahead)}
    (h : ∀ next ∈ successors, next.isEmpty) : ∀ q ∈ (b.follow successors).2, q = none := by
  unfold follow
  rw [← Array.foldl_toList]
  apply List.foldlRecOn (motive := fun acc : Builder × Array (Option Nat) => ∀ q ∈ acc.2, q = none)
  . intro q hq
    exact absurd hq (Array.not_mem_empty q)
  . intro acc hacc next hnext
    rw [if_pos (h next (Array.mem_toList_iff.mp hnext))]
    intro q hq
    rcases Array.mem_push.mp hq with hq | rfl
    . exact hacc q hq
    . rfl

theorem exists_fill_eq (hctx : ctx.additions.size = ctx.numbering.vars) (h : b.Begun)
    {kernel : Array Lookahead} (hk : b.kernels[b.states.size]? = some kernel)
    : ∃ b' s, fill ctx b kernel = { b' with states := b'.states.push s } ∧ Extends b b' ∧
        Built ctx.numbering b.states.size s := by
  have hextends := extends_follow h (ctx.successors (ctx.closure kernel))
  refine ⟨(b.follow (ctx.successors (ctx.closure kernel))).1, ctx.state (ctx.closure kernel)
    (b.follow (ctx.successors (ctx.closure kernel))).2
    ((b.follow (ctx.successors (ctx.closure kernel))).1.coreOf.getD b.states.size 0), rfl, hextends, ?_⟩
  have hidle (hi : b.states.size = 0) (core : Nat) := by
    have hkernel := h.kernels kernel (hi ▸ hk)
    have hnone := b.eq_none_of_mem_follow fun _ => ctx.isEmpty_of_mem_successors
    have hstate := ctx.idle_state hnone core
    rw [← ctx.closure_empty, ← hkernel] at hstate
    exact hstate
  constructor
  . exact Context.reduces_state hctx _ _ _
  . have hlt := (Array.getElem?_eq_some_iff.mp hk).1
    have hsize := hextends.size_le
    rw [← hextends.begun.size_eq] at hsize
    have hcore := Array.getElem?_eq_getElem (Nat.lt_of_lt_of_le hlt hsize)
    unfold Context.state
    dsimp only
    rw [Array.getD_eq_getD_getElem?, hcore]
    exact hextends.begun.coreOf _ _ hcore
  . exact fun hi => (hidle hi _).1
  . exact fun hi => (hidle hi _).2

theorem built_run (hctx : ctx.additions.size = ctx.numbering.vars) (fuel : Nat) (h : b.Begun)
    (hs : ∀ i s, b.states[i]? = some s → Built ctx.numbering i s)
    : ∀ i s, (run ctx fuel b).states[i]? = some s → Built ctx.numbering i s := by
  induction fuel generalizing b with
  | zero => exact hs
  | succ fuel ih =>
    unfold run
    split
    . exact hs
    . next kernel hk =>
      rcases exists_fill_eq hctx h hk with ⟨b', s, hfill, hextends, hbuilt⟩
      rw [hfill]
      apply ih
      . exact { hextends.begun with }
      . intro i s' hs'
        rw [Array.getElem?_push, hextends.states_eq] at hs'
        split at hs'
        . next hi =>
          rw [hi, ← Option.some.inj hs']
          exact hbuilt
        . exact hs i s' hs'

theorem begun_stateOf_empty : (({} : Builder).stateOf #[]).1.Begun := by
  unfold stateOf
  rw [Std.HashMap.getElem?_empty]
  dsimp only
  rw [Array.map_empty, Std.HashMap.getElem?_empty]
  dsimp only
  constructor
  . rfl
  . exact Nat.one_pos
  . intro k hk
    exact (Option.some.inj hk).symm
  . exact Nat.lt_of_lt_of_eq Nat.one_pos
      (Std.HashMap.size_insert.trans (if_neg Std.HashMap.not_mem_empty)).symm
  . intro key c hc hne
    rw [Std.HashMap.getElem?_insert] at hc
    split at hc
    . next heq => exact absurd (beq_iff_eq.mp heq).symm hne
    . rw [Std.HashMap.getElem?_empty] at hc
      contradiction
  . intro i c hc
    rw [Array.getElem?_push] at hc
    split at hc
    . next hi =>
      rw [← Option.some.inj hc]
      exact iff_of_true rfl hi
    . contradiction

/--
All states are built like this, from the one for errors on, to which nothing leads.
-/
theorem built_ofContext (hctx : ctx.additions.size = ctx.numbering.vars) (i : Nat) (s : State)
    (hs : (ofContext ctx).states[i]? = some s) : Built ctx.numbering i s := by
  have hne : #[⟨ctx.table.start, SymSet.single ctx.numbering.stop⟩] ≠ (#[] : Array Lookahead) :=
    fun heq => Nat.one_ne_zero (congrArg Array.size heq)
  have hextends := extends_stateOf begun_stateOf_empty hne
  apply built_run hctx maxStates hextends.begun _ i s hs
  intro i s hs
  rw [hextends.states_eq] at hs
  have hempty : (({} : Builder).stateOf #[]).1.states = #[] := by
    unfold stateOf
    rw [Std.HashMap.getElem?_empty]
  rw [hempty] at hs
  contradiction

end Builder

end CallFlow.Automaton
