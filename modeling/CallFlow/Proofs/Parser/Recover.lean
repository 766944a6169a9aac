import Mathlib.Data.List.TakeDrop
import CallFlow.Proofs.Parser.Reduce

/-!
This module contains that shifting, accepting and recovering from an error keep the stack valid. What is
skipped goes into an error that takes its place (`ensures_skipToken`), or what was passed before goes into one
(`ensures_recoverTo`), and a missing token stands where the head stands (`ensures_insertMissing`).
-/

namespace CallFlow.Parser

open CallFlow.Text CallFlow.Automaton

namespace Engine

variable {env : Env} {r r' r₀ : Run} {v w k p q state : Nat} {t : Subtree}

/-! Shifting and accepting. -/

theorem ensures_takeLayout (hr : Valid env r)
    : Ensures env r (takeLayout v t) fun _ r' => Onward env r r' := by
  have hok := hr.headOk v
  unfold takeLayout
  split
  . refine ⟨hr.modify ?_, Nat.le_of_eq Array.size_modify.symm⟩
    exact ⟨hok.lt_size, hok.active, hok.lookahead⟩
  . exact Onward.refl hr

theorem ensures_shift {extra : Bool} (hr : Valid env r) (hv : (r.head v).lookahead = none)
    (ht : Leads env r.nodes (r.head v).node [t] state t.info.stop.byte)
    (hextra : extra → ¬ t.Loose env.automaton)
    : Ensures env r (shift v state t extra) fun _ r' => Onward env r r' := by
  have hleads : Leads env r.nodes (r.head v).node [if t.children.isEmpty then t.setExtra extra else t] state
      t.info.stop.byte := by
    split
    . exact ht.setExtra hextra
    . exact ht
  unfold shift
  dsimp only
  rw [ensures_bind]
  apply (ensures_push_cons hr hv hleads).imp
  rintro _ r' ⟨hr', hframe, _⟩
  exact (hframe.onward hr').ensures (ensures_takeLayout hr')

/--
The last tree that is not extra makes way for its children under a root that is named after it. If there are
errors before it, one of them counts.
-/
theorem accounted_root {a : Automaton} {text : Array Char} {before after : List Subtree}
    (ht : Sound a text t)
    (h : (∀ u ∈ before ++ t :: after, ¬ u.Loose a) ∨
      ∃ e ∈ before ++ t :: after, e.symbol = a.errorSymbol ∧ 0 < e.errorCost ∧ ¬ e.extra)
    (hafter : ∀ u ∈ after, u.extra) : Accounted a t.symbol (before ++ t.children ++ after) := by
  rcases h with hclean | ⟨e, he, herror, hcost, hextra⟩
  . rw [List.forall_mem_append, List.forall_mem_cons] at hclean
    rcases ht.accounted_children with hsymbol | hsymbol | hchildren
    . exact .inl hsymbol
    . exact .inr (.inl hsymbol)
    . refine .inr (.inr ?_)
      rintro ⟨u, hu, hfaulty⟩
      rcases List.mem_append.mp hu with hu | hu
      . rcases List.mem_append.mp hu with hu' | hu'
        . exact ⟨u, List.mem_append_left _ hu, Subtree.counts_of_faulty hfaulty (hclean.1 u hu')⟩
        . rcases hchildren ⟨u, hu', hfaulty⟩ with ⟨c, hc, hcounts⟩
          exact ⟨c, List.mem_append_left _ (List.mem_append_right _ hc), hcounts⟩
      . exact ⟨u, List.mem_append_right _ hu, Subtree.counts_of_faulty hfaulty (hclean.2.2 u hu)⟩
  . rcases List.mem_append.mp he with he | he
    . refine .inr (.inr fun _ => ⟨e, List.mem_append_left _ (List.mem_append_left _ he), ?_, hcost⟩)
      rw [herror]
      exact Nat.ne_of_lt (Nat.lt_succ_self _)
    . rcases List.mem_cons.mp he with rfl | he
      . exact .inl herror
      . exact absurd (hafter e he) hextra

/--
What stands on the stack and the trees behind it make a whole. Where a way comes from an error, an error that
counts is among them.
-/
theorem ensures_accept {errors : List Subtree} (hr : Valid env r) (hv : (r.head v).lookahead = none)
    (ht : Sound env.automaton env.text t)
    (herrors : Row env.automaton env.text (byteAt r.nodes (r.head v).node) errors t.info.before.byte)
    (h : (r.stateOf v ≠ errorState ∧ ∀ u ∈ errors ++ [t], ¬ u.Loose env.automaton) ∨
      ∃ e ∈ errors, e.symbol = env.automaton.errorSymbol ∧ 0 < e.errorCost ∧ ¬ e.extra)
    : Ensures env r (accept v errors t) fun _ r' => Onward env r r' := by
  have hplace := (hr.nodeOk (r.head v).node).isPlace
  have hbehind := herrors.append (Row.singleton ht (Nat.le_refl _) (Nat.le_refl t.info.stop.byte))
  unfold accept
  simp only [ensures_bind, ensures_read, Stack.ensures_place]
  apply (Stack.ensures_popAll hr).imp
  intro slices r₁ hwalked
  have hv₁ := hwalked.frame.stands hr ⟨hv, Nat.le_refl _⟩
  have hstop : IsPlace env.text t.info.stop := ht.at_info.isPlace_stop
  apply (Stack.ensures_leave hwalked.valid hv₁.lookahead hstop (Nat.le_refl _)).imp
  rintro _ r₂ ⟨hr₂, hframe⟩
  have hsize := Nat.le_trans hwalked.frame.le_size hframe.le_size
  rw [← Array.forIn_toList]
  apply Ensures.forIn (fun ss _ r' => Valid env r' ∧ r'.heads = r₂.heads ∧ ∀ s ∈ ss, s ∈ slices)
  . refine ⟨hr₂, rfl, ?_⟩
    intro s hs
    exact Array.mem_toList_iff.mp hs
  . rintro s ss _ r' ⟨hr', hheads, hss⟩
    rw [List.forall_mem_cons] at hss
    have hslice := (hwalked.slice s hss.1).2.2
    have hrow := hslice.row.append hbehind
    rw [List.span_eq_takeWhile_dropWhile]
    dsimp only
    generalize hall : s.trees ++ (errors ++ [t]) = all at hrow
    split
    . exact ⟨hr'.finish hr'.finished, hheads, hss.2⟩
    . next last before hlast =>
      have hspan := congrArg List.reverse
        (List.takeWhile_append_dropWhile (p := Subtree.extra) (l := all.reverse))
      rw [hlast, List.reverse_append, List.reverse_cons, List.append_assoc, List.singleton_append,
        List.reverse_reverse] at hspan
      have hafter (u : Subtree) (hu : u ∈ (all.reverse.takeWhile Subtree.extra).reverse) : u.extra :=
        List.mem_takeWhile_imp (List.mem_reverse.mp hu)
      generalize (all.reverse.takeWhile Subtree.extra).reverse = after at hspan hafter
      rw [← hspan] at hrow
      have hroot : Accounted env.automaton last.symbol (before.reverse ++ last.children ++ after) := by
        apply accounted_root (hrow.sound last (List.mem_append_right _ List.mem_cons_self)) _ hafter
        rw [hspan, ← hall]
        rcases h with ⟨hstate, hclean⟩ | ⟨e, he, herror⟩
        . left
          rw [List.forall_mem_append]
          exact ⟨(hslice.clean hstate).2, hclean⟩
        . exact .inr ⟨e, List.mem_append_right _ (List.mem_append_left _ he), herror⟩
      have hfinish := hrow.inline.whole_node last.info.labels hplace hroot
      refine ⟨hr'.finish ?_, hheads, hss.2⟩
      intro root hmem
      split at hmem
      . next old hold =>
        split at hmem
        . exact Option.some.inj hmem ▸ hfinish
        . exact Option.some.inj hmem ▸ hr'.finished old hold
      . exact Option.some.inj hmem ▸ hfinish
  . rintro _ r' ⟨hr', hheads, _⟩
    rw [← hheads] at hsize
    split
    . next s hs =>
      rw [ensures_bind]
      apply (Stack.ensures_remove hr').imp
      rintro _ r'' ⟨hr'', hmoved⟩
      have hle := hmoved.le_size (hwalked.slice s (Array.mem_of_getElem? hs)).1 hsize
      exact Onward.ensures ⟨hr'', hle⟩ (Stack.ensures_halt_onward hr'')
    . exact Onward.ensures ⟨hr', hsize⟩ (Stack.ensures_halt_onward hr')

/-! Recovering. -/

theorem ensures_pushError {ts : List Subtree} (hr : Valid env r) (hv : (r.head v).lookahead = none)
    (hstate : state ≠ errorState → r.stateOf v ≠ errorState)
    (hrow : Row env.automaton env.text (byteAt r.nodes (r.head v).node) ts q)
    : Ensures env r (pushError v ts state) fun _ r' => Valid env r' ∧ Frame r.heads.size v q r r' := by
  have htrailing (t : Subtree) (ht : t ∈ (Subtree.splitTrailing ts).2) : ¬ t.Loose env.automaton := by
    apply (hrow.sound t _).not_loose_of_extra (Subtree.extra_of_mem_splitTrailing ht)
    rw [← Subtree.splitTrailing_append ts]
    exact List.mem_append_right _ ht
  rw [← Subtree.splitTrailing_append ts] at hrow
  unfold pushError
  simp only [ensures_bind, ensures_read, Stack.ensures_place]
  split
  . next hne =>
    rw [Bool.not_eq_true', List.isEmpty_eq_false_iff] at hne
    have herror (place : Place) : ¬ Subtree.Loose env.automaton
        (.node env.automaton env.automaton.errorSymbol 0 place (Subtree.splitTrailing ts).1) :=
      Subtree.not_loose_node _ _ _ _ (Nat.ne_of_lt (Nat.lt_succ_self _))
    have hleads (place : Place) : Leads env r.nodes (r.head v).node
        (.node env.automaton env.automaton.errorSymbol 0 place (Subtree.splitTrailing ts).1 ::
          (Subtree.splitTrailing ts).2) state q := by
      refine ⟨hrow.node (fun hnil => absurd hnil hne) (.inl rfl), fun hs => ⟨hstate hs, ?_⟩⟩
      exact List.forall_mem_cons.mpr ⟨herror place, htrailing⟩
    rw [ensures_bind]
    apply (ensures_push_cons hr hv ((hleads _).setExtra fun _ => herror _)).imp
    rintro _ r' ⟨hr', hframe, hleads⟩
    apply (ensures_forIn_push hr' (hframe.fresh v (.inr rfl)).lookahead hleads).imp
    rintro _ r'' ⟨hr'', hframe'⟩
    exact ⟨hr'', hframe.trans hframe' hr' hframe.le_size (fun _ => rfl) (Nat.le_refl q)⟩
  . next hnil =>
    rw [Bool.not_eq_true', Bool.not_eq_false, List.isEmpty_iff] at hnil
    rw [hnil] at hrow
    exact ensures_forIn_push hr hv ⟨hrow, fun hs => ⟨hstate hs, htrailing⟩⟩

/--
The slices `ss` are left to be looked at. Only the head `done` has been put elsewhere.
-/
structure Waiting (env : Env) (k q : Nat) (r₀ r₁ : Run) (ss : List Stack.Slice) (done : Option Nat)
    (r : Run) : Prop where
  valid : Valid env r
  grows : Grows r₁.nodes r.nodes
  frame : Frame k k q r₀ r
  sorted : ss.Pairwise fun s t => s.head ≤ t.head
  slice : ∀ s ∈ ss, k ≤ s.head ∧ Row env.automaton env.text (byteAt r₁.nodes (r₁.head s.head).node) s.trees q
  done_le : ∀ d ∈ done, ∀ s ∈ ss, d ≤ s.head
  foot : ∀ s ∈ ss, done ≠ some s.head →
    s.head < r.heads.size ∧ SameFoot (r₁.head s.head) (r.head s.head)

namespace Waiting

variable {r₁ : Run} {s : Stack.Slice} {ss : List Stack.Slice} {done : Option Nat}

theorem of_walked {slices : Array Stack.Slice} (h : Stack.Walked env state q r r₁ slices)
    : Waiting env r.heads.size q r r₁ slices.toList none r₁ := by
  refine ⟨h.valid, Grows.refl _, h.frame, h.sorted, ?_, ?_, ?_⟩
  . intro s hs
    have := h.slice s (Array.mem_toList_iff.mp hs)
    exact ⟨this.1, this.2.2.row⟩
  . intro d hd
    contradiction
  . intro s hs _
    exact ⟨(h.slice s (Array.mem_toList_iff.mp hs)).2.1, SameFoot.refl _⟩

theorem tail (h : Waiting env k q r₀ r₁ (s :: ss) done r) : Waiting env k q r₀ r₁ ss done r :=
  ⟨h.valid, h.grows, h.frame, (List.pairwise_cons.mp h.sorted).2,
    fun t ht => h.slice t (List.mem_cons_of_mem s ht),
    fun d hd t ht => h.done_le d hd t (List.mem_cons_of_mem s ht),
    fun t ht => h.foot t (List.mem_cons_of_mem s ht)⟩

theorem still (h : Waiting env k q r₀ r₁ ss done r) (hstill : Still env r r')
    : Waiting env k q r₀ r₁ ss done r' := by
  refine ⟨hstill.valid, h.grows.trans hstill.moved.grows, h.frame.still hstill h.valid, h.sorted, h.slice,
    h.done_le, ?_⟩
  intro s hs hdone
  have hfoot := h.foot s hs hdone
  exact ⟨hstill.moved.lt_size _ hfoot.1, hfoot.2.trans (hstill.moved.foot _)⟩

/--
The head of a slice is put elsewhere.
-/
theorem take (h : Waiting env k q r₀ r₁ (s :: ss) done r) (hdone : done ≠ some s.head) (hr' : Valid env r')
    (hframe : Frame r.heads.size s.head q r r') : Waiting env k q r₀ r₁ ss (some s.head) r' := by
  have hsorted := List.pairwise_cons.mp h.sorted
  refine ⟨hr', h.grows.trans hframe.grows, ?_, hsorted.2, h.tail.slice, ?_, ?_⟩
  . apply h.frame.trans hframe h.valid h.frame.le_size _ (Nat.le_refl q)
    intro hlt
    exact absurd (h.slice s List.mem_cons_self).1 (Nat.not_le_of_lt hlt)
  . rintro _ ⟨⟩
    exact hsorted.1
  . intro t ht hne
    have hlt : s.head < t.head := Nat.lt_of_le_of_ne (hsorted.1 t ht) fun heq => hne (congrArg some heq)
    have hfoot := h.foot t (List.mem_cons_of_mem s ht) (by
      rintro rfl
      have := h.done_le t.head rfl s List.mem_cons_self
      omega)
    exact ⟨Nat.lt_of_lt_of_le hfoot.1 hframe.le_size,
      hfoot.2.trans (hframe.kept t.head hfoot.1 (Nat.ne_of_gt hlt))⟩

end Waiting

theorem ensures_recoverTo {depth goal : Nat} (hr : Valid env r) (hgoal : goal ≠ errorState)
    (hp : byteAt r.nodes (r.head v).node ≤ p)
    : Ensures env r (recoverTo v depth goal) fun _ r' =>
        Valid env r' ∧ Frame r.heads.size r.heads.size p r r' := by
  unfold recoverTo
  simp only [ensures_bind]
  apply (Stack.ensures_popCount hr).imp
  intro slices r₁ hwalked
  generalize byteAt r.nodes (r.head v).node = q at hp hwalked
  rw [← Array.forIn_toList]
  apply Ensures.forIn (fun ss done r' => Waiting env r.heads.size q r r₁ ss done r')
  . exact Waiting.of_walked hwalked
  . intro s ss done r' h
    split
    . exact h.tail
    . next hdone =>
      rw [beq_iff_eq] at hdone
      simp only [ensures_bind, Stack.ensures_state]
      split
      . rw [ensures_bind]
        apply (Stack.ensures_halt h.valid).imp
        intro _ r'' hstill
        exact h.tail.still hstill
      . next hstate =>
        rw [bne_iff_ne, ne_eq, Decidable.not_not] at hstate
        rw [ensures_bind]
        have hfoot := h.foot s List.mem_cons_self hdone
        have hslice := h.slice s List.mem_cons_self
        have hrow := hslice.2
        rw [← h.grows.byteAt_eq (hwalked.valid.headOk s.head).lt_size, ← hfoot.2.node] at hrow
        have hlook := (h.frame.fresh s.head (.inl hslice.1)).lookahead
        apply (Stack.ensures_popError h.valid hfoot.1 hlook).imp
        rintro errors r₂ ⟨hr₂, hframe, herrors, hstate₂⟩
        rw [ensures_bind]
        have hlook₂ := (hframe.fresh s.head (.inr rfl)).lookahead
        rw [hstate] at hstate₂
        apply (ensures_pushError hr₂ hlook₂ (fun _ => hstate₂ hgoal) (herrors.children_head.append hrow)).imp
        rintro _ r₃ ⟨hr₃, hframe'⟩
        apply h.take hdone hr₃
        exact (hframe.of_le hrow.le).trans hframe' hr₂ hframe.le_size (fun _ => rfl) (Nat.le_refl q)
  . intro done r' h
    exact ⟨h.valid, h.frame.of_le hp⟩

theorem ensures_standsAt {count state byte : Nat} {Q : Bool → Run → Prop} (h : ∀ b, Q b r)
    : Ensures env r (standsAt count state byte) Q := by
  unfold standsAt
  rw [ensures_bind]
  apply Ensures.forIn (fun _ _ r' => r' = r)
  . rfl
  . rintro j _ s r' rfl
    simp only [ensures_bind, Stack.ensures_state, Stack.ensures_place]
    split
    . exact h true
    . rfl
  . rintro ⟨b, _⟩ r' rfl
    cases b with
    | none => exact h false
    | some b => exact h b

theorem ensures_goBack {count : Nat} (hr : Valid env r) (hv : Stands r v p)
    : Ensures env r (goBack v t count) fun _ r' =>
        Valid env r' ∧ Frame r.heads.size r.heads.size p r r' := by
  unfold goBack
  simp only [ensures_bind, ensures_read, Stack.ensures_place, Stack.ensures_head]
  apply (Stack.ensures_nodesSinceError hr).imp
  intro made r₁ hstill
  have hframe : Frame r.heads.size r.heads.size p r r₁ := (Frame.self hr).still hstill hr
  apply Stack.ensures_errorCost
  intro cost
  split
  . exact ⟨hstill.valid, hframe⟩
  . rw [ensures_bind, ← Array.forIn_toList]
    apply Ensures.forIn (fun _ s r' => s.1 = none ∧ Valid env r' ∧
      Frame r.heads.size r.heads.size p r r')
    . exact ⟨rfl, hstill.valid, hframe⟩
    . rintro passed _ s r' ⟨_, hr', hframe⟩
      split
      . exact ⟨rfl, hr', hframe⟩
      . next hpassed =>
        rw [Bool.or_eq_true, not_or, beq_iff_eq] at hpassed
        rw [ensures_bind]
        apply ensures_standsAt
        intro stands
        split
        . exact ⟨rfl, hr', hframe⟩
        . rw [ensures_bind]
          apply (ensures_isHopeless hr').imp
          intro hopeless r₂ hstill'
          have hframe := hframe.still hstill' hr'
          have hr₂ := hstill'.valid
          split
          . exact ⟨hr₂, hframe⟩
          . split
            . rw [ensures_bind]
              apply (ensures_recoverTo hr₂ hpassed.1 (hframe.stands hr hv).byte_le).imp
              rintro recovered r₃ ⟨hr₃, hframe'⟩
              have hframe := hframe.beside hframe' hr₂
              split
              . exact ⟨hr₃, hframe⟩
              . exact ⟨rfl, hr₃, hframe⟩
            . exact ⟨rfl, hr₂, hframe⟩
    . rintro ⟨_, _⟩ r' ⟨rfl, hr', hframe⟩
      exact ⟨hr', hframe⟩

/--
Inactive heads go, but none of the first `k`.
-/
theorem ensures_removeInactive (hr : Valid env r) (h : Frame k k p r₀ r)
    : Ensures env r (removeInactive k) fun _ r' => Valid env r' ∧ Frame k k p r₀ r' := by
  have hk : k ≤ r.heads.toList.length := h.le_size
  unfold removeInactive
  rw [ensures_modify]
  generalize hhs : (r.heads.toList.take k).toArray ++
    (r.heads.toList.drop k).toArray.filter (·.activity == .active) = hs
  have hlist : hs.toList = r.heads.toList.take k ++
      (r.heads.toList.drop k).filter (·.activity == .active) := by
    rw [← hhs, Array.toList_append, Array.toList_filter]
  have hvalid : Valid env { r with heads := hs } := by
    apply hr.withHeads
    intro x hx
    rw [← Array.mem_toList_iff, hlist, List.mem_append] at hx
    apply hr.heads x
    rw [← Array.mem_toList_iff]
    rcases hx with hx | hx
    . exact List.mem_of_mem_take hx
    . exact List.mem_of_mem_drop (List.mem_of_mem_filter hx)
  have hhead (i : Nat) : Run.head { r with heads := hs } i = hs.toList[i]?.getD default := by
    unfold Run.head
    rw [Array.getD_eq_getD_getElem?, Array.getElem?_toList]
  refine ⟨hvalid, h.grows, ?_, ?_, ?_⟩
  . dsimp only
    rw [← Array.length_toList, hlist, List.length_append, List.length_take, Nat.min_eq_left hk]
    exact Nat.le_add_right _ _
  . intro i hi hne
    apply (h.kept i hi hne).trans
    apply SameFoot.of_eq
    rw [hhead, hlist, List.getElem?_append_left, List.getElem?_take_of_lt hi, Array.getElem?_toList,
      ← Array.getD_eq_getD_getElem?]
    . rfl
    . rw [List.length_take, Nat.min_eq_left hk]
      exact hi
  . intro i hi
    have hi : k ≤ i := by omega
    by_cases hlt : i < hs.size
    . have hx := Array.getElem?_eq_getElem hlt
      rw [← Array.getElem?_toList, hlist, List.getElem?_append_right] at hx
      . rcases List.getElem?_of_mem (List.mem_of_mem_filter (List.mem_of_getElem? hx)) with ⟨j, hj⟩
        rw [List.getElem?_drop] at hj
        have hgrows : Grows r.nodes ({ r with heads := hs } : Run).nodes := Grows.refl r.nodes
        apply (h.fresh (k + j) (.inl (Nat.le_add_right k j))).keep hr hgrows
        apply SameFoot.of_eq
        unfold Run.head
        rw [Array.getD_eq_getD_getElem?, Array.getElem?_eq_getElem hlt, Array.getD_eq_getD_getElem?,
          ← Array.getElem?_toList, hj]
      . rw [List.length_take]
        omega
    . exact Stands.of_size_le hvalid (Nat.le_of_not_lt hlt)

/--
A token that is extra everywhere is one of the grammar.
-/
theorem ensures_isExtraToken {c : SymCode} {Q : Bool → Run → Prop} (hr : Valid env r)
    (h : ∀ b : Bool, (b → c < env.automaton.numbering.total) → Q b r)
    : Ensures env r (isExtraToken c) Q := by
  apply h
  intro hextra
  have hback : (env.automaton.actions startState c).back? = some .shiftExtra := beq_iff_eq.mp hextra
  exact hr.automaton.lt_total (Array.mem_of_back? hback)

theorem ensures_skipToken (hr : Valid env r) (ht : Sound env.automaton env.text t)
    (hv : Stands r v t.info.before.byte) (hlt : v < r.heads.size)
    : Ensures env r (skipToken v t) fun _ r' => Onward env r r' := by
  unfold skipToken
  simp only [ensures_bind, ensures_read, Stack.ensures_place]
  apply (Stack.ensures_nodesSinceError hr).imp
  intro made r₁ hstill
  have hr₁ := hstill.valid
  have hv := hstill.moved.stands hr hv
  apply ensures_isExtraToken hr₁
  intro isExtra hextra
  have hsingle : Row env.automaton env.text (byteAt r₁.nodes (r₁.head v).node)
      [Subtree.node env.automaton env.automaton.errorRepeat 0 (r.node (r.head v).node).place
        [if isExtra then t.setExtra true else t]] t.info.stop.byte := by
    have hrow := Row.singleton ht hv.byte_le (Nat.le_refl t.info.stop.byte)
    apply Sound.node_row _ _ _ (List.cons_ne_nil _ _) (.inr (.inl rfl))
    split
    . next hisExtra => exact hrow.setExtra fun _ => Subtree.not_loose_of_lt (hextra hisExtra)
    . exact hrow
  generalize Subtree.node env.automaton env.automaton.errorRepeat 0 (r.node (r.head v).node).place
    [if isExtra then t.setExtra true else t] = single at hsingle
  have hpush (r' : Run) (tree : Subtree) (hr' : Onward env r r') (hlook : (r'.head v).lookahead = none)
      (hrow : Row env.automaton env.text (byteAt r'.nodes (r'.head v).node) [tree] t.info.stop.byte)
      : Ensures env r' (do
          Stack.push v (some tree) errorState
          takeLayout v t) fun _ r'' => Onward env r r'' := by
    rw [ensures_bind]
    apply (ensures_push_cons hr'.valid hlook ⟨hrow, fun hs => absurd rfl hs⟩).imp
    rintro _ r'' ⟨hr'', hframe, _⟩
    exact (hr'.trans (hframe.onward hr'')).ensures (ensures_takeLayout hr'')
  split
  . rw [ensures_bind]
    apply (Stack.ensures_popCount hr₁).imp
    intro slices r₂ hwalked
    have hr₂ := hwalked.valid
    have hv₂ := hwalked.frame.stands hr₁ ⟨hv.lookahead, Nat.le_refl _⟩
    split
    . have honward := hstill.onward.trans (hwalked.frame.onward hr₂)
      exact hpush r₂ single honward hv₂.lookahead (hsingle.of_le hv₂.byte_le)
    . next s hs =>
      rcases hwalked.slice s (Array.mem_of_getElem? hs) with ⟨hle, hhead, hleads⟩
      have hstands : Stands r₂ s.head (byteAt r₂.nodes (r₂.head s.head).node) :=
        ⟨(hwalked.frame.fresh s.head (.inl hle)).lookahead, Nat.le_refl _⟩
      rw [ensures_bind]
      apply (Stack.ensures_keepFirst hr₂).imp
      intro _ r₃ hkept
      have hr₃ := hkept.valid
      have hgrows : Grows r₂.nodes r₃.nodes := hkept.nodes_eq ▸ Grows.refl _
      have hstands := hstands.keep hr₂ hgrows (SameFoot.of_eq (hkept.head_eq s.head (Nat.lt_succ_self _)))
      rw [ensures_bind]
      have hlt₃ : s.head < r₃.heads.size := by
        have := hkept.size_eq
        omega
      have hle₁ := Nat.le_trans hstill.moved.size_le hle
      apply (Stack.ensures_renumber_stands hr₃ (Nat.le_trans (Nat.le_of_lt hlt) hle₁) hstands hlt₃).imp
      rintro _ r₄ ⟨hr₄, hv₄, _, hle₄⟩
      apply hpush r₄ _ ⟨hr₄, Nat.le_trans hle₁ hle₄⟩ hv₄.lookahead
      apply Sound.node_row _ _ _ (List.append_ne_nil_of_right_ne_nil _ (List.cons_ne_nil _ _))
        (.inr (.inl rfl))
      exact (hleads.row.append hsingle).of_le hv₄.byte_le
  . exact hpush r₁ single hstill.onward hv.lookahead hsingle

theorem ensures_recover (hr : Valid env r) (ht : Sound env.automaton env.text t)
    (hv : Stands r v t.info.before.byte) (hlt : v < r.heads.size)
    : Ensures env r (recover v t) fun _ r' => Onward env r r' := by
  unfold recover
  simp only [ensures_bind, ensures_read, Stack.ensures_count]
  apply Stack.ensures_errorCost
  intro cost
  apply (ensures_goBack hr hv).imp
  rintro wentBack r₁ ⟨hr₁, hframe⟩
  apply (ensures_removeInactive hr₁ hframe).imp
  rintro _ r₂ ⟨hr₂, hframe⟩
  have hv₂ := hframe.stands hr hv
  have honward := hframe.onward hr₂
  have hlt₂ := Nat.lt_of_lt_of_le hlt hframe.le_size
  split
  . simp only [ensures_bind, Stack.ensures_place]
    have herror := (Sound.node_nil (a := env.automaton) 0 _ env.automaton.errorSymbol
      (hr₂.nodeOk (r₂.head v).node).isPlace).to_le hv₂.byte_le
    apply honward.ensures
    apply ensures_accept hr₂ hv₂.lookahead ht herror (.inr ⟨_, List.mem_singleton_self _, ?_⟩)
    rw [Subtree.symbol_node, Subtree.extra_node]
    refine ⟨rfl, Subtree.cost_of_faulty_node _ _ _ _ (.inl ?_), Bool.false_ne_true⟩
    rw [Subtree.symbol_node]
  . rw [ensures_bind, Stack.ensures_count]
    split
    . exact honward.ensures (Stack.ensures_halt_onward hr₂)
    . rw [ensures_bind]
      apply (ensures_isHopeless hr₂).imp
      intro hopeless r₃ hstill
      have honward₃ := honward.trans hstill.onward
      split
      . exact honward₃.ensures (Stack.ensures_halt_onward hstill.valid)
      . have hlt₃ := Nat.lt_of_lt_of_le hlt₂ hstill.moved.size_le
        exact honward₃.ensures (ensures_skipToken hstill.valid ht (hstill.moved.stands hr₂ hv₂) hlt₃)

theorem ensures_insertMissing (hr : Valid env r) (hv : Stands r v p) (hlt : v < r.heads.size)
    : Ensures env r (insertMissing v t) fun _ r' =>
        Valid env r' ∧ Frame r.heads.size r.heads.size p r r' := by
  unfold insertMissing
  simp only [ensures_bind, ensures_read, Stack.ensures_state]
  apply Ensures.forIn (fun _ s r' => s.1 = none ∧ Valid env r' ∧ Frame r.heads.size r.heads.size p r r')
  . exact ⟨rfl, hr, Frame.self hr⟩
  . rintro c _ s r' ⟨_, hr', hframe⟩
    split
    . next hnext =>
      rw [Bool.and_eq_true, Bool.and_eq_true, bne_iff_ne] at hnext
      have hv' := hframe.stands hr hv
      have hplace := (hr'.nodeOk (r'.head v).node).isPlace
      have hstate' := hframe.stateOf_eq hr hlt (Nat.ne_of_lt hlt)
      simp only [ensures_bind, Stack.ensures_place]
      apply (Stack.ensures_copy hr' hv').imp
      rintro w r₁ ⟨rfl, hr₁, hframe₁, hfoot⟩
      have hstate : stateAt r₁.nodes (r₁.head r'.heads.size).node ≠ errorState := by
        intro heq
        rw [← hstate', ← hfoot.stateOf_eq hr' hframe₁.grows] at hnext
        unfold Run.stateOf at hnext
        rw [heq, hr.automaton.nextState] at hnext
        exact hnext.1.1 rfl
      have hmissing : Leads env r₁.nodes (r₁.head r'.heads.size).node
          [.mk { symbol := c, before := (r'.node (r'.head v).node).place,
                 start := (r'.node (r'.head v).node).place, stop := (r'.node (r'.head v).node).place,
                 missing := true } []] (env.automaton.nextState (r.stateOf v) c) p := by
        constructor
        . apply Row.singleton
          . apply Sound.leaf hplace hplace hplace (Nat.le_refl _) (Nat.le_refl _) rfl
            intro hextra
            contradiction
          . rw [hfoot.node, hframe₁.grows.byteAt_eq (hr'.headOk v).lt_size]
            exact Nat.le_refl _
          . exact hv'.byte_le
        . intro _
          refine ⟨hstate, List.forall_mem_singleton.mpr (Subtree.not_loose_of_lt ?_)⟩
          exact lt_total_of_nextState hnext.1.1
      have hlook := (hframe₁.fresh r'.heads.size (.inr rfl)).lookahead
      apply (ensures_push_cons hr₁ hlook hmissing).imp
      rintro _ r₂ ⟨hr₂, hframe₂, _⟩
      have hle := hframe.le_size
      have hframe₁ := hframe.beside hframe₁ hr'
      have hframe₂ := hframe₁.trans hframe₂ hr₁ hframe₁.le_size (by omega) (Nat.le_refl p)
      apply (ensures_reduceAll hr₂ hframe₂ (.inr hle) fun _ => hle).imp
      rintro can r₃ ⟨hr₃, hframe₃⟩
      split
      . exact ⟨hr₃, hframe₃⟩
      . exact ⟨rfl, hr₃, hframe₃⟩
    . exact ⟨rfl, hr', hframe⟩
  . rintro ⟨_, _⟩ r' ⟨rfl, hr', hframe⟩
    exact ⟨hr', hframe⟩

theorem ensures_handleError (hr : Valid env r) (ht : Sound env.automaton env.text t)
    (hv : Stands r v t.info.before.byte) (hlt : v < r.heads.size)
    : Ensures env r (handleError v t) fun _ r' => Onward env r r' := by
  unfold handleError
  simp only [ensures_bind, Stack.ensures_count]
  apply (ensures_reduceAll hr (Frame.refl hr hv) (.inl rfl) (by intro; contradiction)).imp
  rintro _ r₁ ⟨hr₁, hframe⟩
  apply Ensures.forIn (fun ws _ r' => Valid env r' ∧ Frame r.heads.size v t.info.before.byte r r' ∧
    ∀ w ∈ ws, (r.heads.size ≤ w ∨ w = v) ∧ w < r'.heads.size)
  . refine ⟨hr₁, hframe, ?_⟩
    rw [List.forall_mem_cons]
    refine ⟨⟨.inr rfl, Nat.lt_of_lt_of_le hlt hframe.le_size⟩, ?_⟩
    intro w hw
    rcases List.getElem?_of_mem hw with ⟨j, hj⟩
    rw [List.getElem?_drop, List.getElem?_eq_some_iff] at hj
    rcases hj with ⟨hlt', hj⟩
    rw [List.getElem_range] at hj
    rw [List.length_range] at hlt'
    omega
  . rintro w ws inserted r' ⟨hr', hframe, hws⟩
    rw [List.forall_mem_cons] at hws
    have hpush (r'' : Run) (hr'' : Valid env r'') (hframe' : Frame r.heads.size v t.info.before.byte r r'')
        (hle : r'.heads.size ≤ r''.heads.size)
        : Ensures env r'' (Stack.push w none errorState) fun _ r₃ =>
            Valid env r₃ ∧ Frame r.heads.size v t.info.before.byte r r₃ ∧
              ∀ w ∈ ws, (r.heads.size ≤ w ∨ w = v) ∧ w < r₃.heads.size := by
      have hw := hframe'.fresh w hws.1.1
      have hleads : Leads env r''.nodes (r''.head w).node (none : Option Subtree).toList errorState
          t.info.before.byte :=
        Leads.nil hw.byte_le fun hs => absurd rfl hs
      apply (Stack.ensures_push hr'' hw.lookahead hleads).imp
      rintro _ r₃ ⟨hr₃, hframe₃, _⟩
      refine ⟨hr₃, hframe'.trans hframe₃ hr'' hframe'.le_size (by omega) (Nat.le_refl _), ?_⟩
      intro x hx
      exact ⟨(hws.2 x hx).1, Nat.lt_of_lt_of_le (hws.2 x hx).2 (Nat.le_trans hle hframe₃.le_size)⟩
    split
    . rw [ensures_bind]
      apply (ensures_insertMissing hr' (hframe.fresh w hws.1.1) hws.1.2).imp
      rintro inserted r'' ⟨hr'', hframe'⟩
      exact hpush r'' hr'' (hframe.beside hframe' hr') hframe'.le_size
    . exact hpush r' hr' hframe (Nat.le_refl _)
  . rintro inserted r₂ ⟨hr₂, hframe, _⟩
    apply Ensures.forIn (fun _ _ r' => Valid env r' ∧ Frame r.heads.size v t.info.before.byte r r')
    . exact ⟨hr₂, hframe⟩
    . rintro _ _ _ r' ⟨hr', hframe⟩
      rw [ensures_bind]
      apply (Stack.ensures_merge hr').imp
      intro merged r'' hmerge
      split at hmerge
      . exact ⟨hmerge.1, hframe.skip hmerge.2 hr' (Nat.le_refl _)⟩
      . rw [hmerge]
        exact ⟨hr', hframe⟩
    . rintro _ r₃ ⟨hr₃, hframe⟩
      apply (Stack.ensures_recordPassed hr₃ (hframe.fresh v (.inr rfl))).imp
      rintro _ r₄ ⟨honward, hv₄⟩
      have hle := Nat.le_trans hframe.le_size honward.size_le
      exact Onward.ensures ⟨honward.valid, hle⟩
        (ensures_recover honward.valid ht hv₄ (Nat.lt_of_lt_of_le hlt hle))

end Engine

end CallFlow.Parser
