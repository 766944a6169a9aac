import CallFlow.Proofs.Parser.Run

/-!
This module contains that the stack stays valid when a tree that leads on from a head is pushed, when a head
leaves the stack, and when heads are merged.
-/

namespace CallFlow.Parser

open CallFlow.Text CallFlow.Automaton

variable {env : Env} {r r' r'' : Run} {v w i p q s : Nat} {n : StackNode}

/-! Pushing. -/

theorem Valid.pushNode (hr : Valid env r) (hn : NodeOk env r.nodes n)
    : Valid env { r with nodes := r.nodes.push n } := by
  have hgrows := Grows.push r.nodes n
  constructor
  . exact hr.automaton
  . exact Nat.lt_of_lt_of_le hr.size_pos hgrows.size_le
  . rw [hgrows.byteAt_eq hr.size_pos]
    exact hr.bottom
  . rw [hgrows.state_eq 0 hr.size_pos]
    exact hr.bottom_state
  . intro m hm
    rcases Array.mem_push.mp hm with hm | rfl
    . exact hgrows.nodeOk (hr.nodes m hm)
    . exact hgrows.nodeOk hn
  . intro h hh
    exact hgrows.headOk (hr.heads h hh)
  . exact hr.finished

namespace Stack

/--
One more node, and a head put on it.
-/
theorem ensures_setHead_top {f : Head → Head} (hr : Valid env r) (hv : (r.head v).lookahead = none)
    (hn : NodeOk env r.nodes n) (hle : n.place.byte ≤ q)
    (hf : ∀ h, (f h).node = r.nodes.size ∧ (f h).lookahead = h.lookahead)
    : Ensures env { r with nodes := r.nodes.push n } (setHead v f) fun _ r' =>
        Valid env r' ∧ Frame r.heads.size v q r r' ∧ (n.state ≠ errorState → r'.stateOf v ≠ errorState) := by
  have hgrows := Grows.push r.nodes n
  have hnode : (r.nodes.push n).getD r.nodes.size default = n := by
    rw [Array.getD_eq_getD_getElem?, Array.getElem?_push_size, Option.getD_some]
  have hlook : (f (r.head v)).lookahead = none := by rw [(hf _).2, hv]
  have hstate : stateAt (r.nodes.push n) (f (r.head v)).node = n.state := by
    unfold stateAt
    rw [(hf _).1, hnode]
  apply (ensures_setHead_frame (p := q) (hr.pushNode hn) _ hlook _).imp
  . rintro _ r' ⟨hr', hframe, hstate'⟩
    refine ⟨hr', ⟨hgrows.trans hframe.grows, hframe.le_size, hframe.kept, hframe.fresh⟩, ?_⟩
    intro hn
    exact hstate' fun heq => hn (hstate.symm.trans heq)
  . constructor
    . change (f (r.head v)).node < (r.nodes.push n).size
      rw [(hf _).1, Array.size_push]
      omega
    . intro _
      exact hlook
    . intro t ht
      exact absurd (ht.symm.trans hlook) (Option.some_ne_none t)
  . change byteAt (r.nodes.push n) (f (r.head v)).node ≤ q
    unfold byteAt
    rw [(hf _).1, hnode]
    exact hle

/--
A tree that leads from a head to the byte `q` takes the head there.
-/
theorem ensures_push {tree : Option Subtree} (hr : Valid env r) (hv : (r.head v).lookahead = none)
    (h : Leads env r.nodes (r.head v).node tree.toList s q)
    : Ensures env r (push v tree s) fun _ r' =>
        Valid env r' ∧ Frame r.heads.size v q r r' ∧ (s ≠ errorState → r'.stateOf v ≠ errorState) := by
  have hbelow := (hr.headOk v).lt_size
  unfold push
  simp only [ensures_bind, ensures_read, ensures_head, ensures_node, ensures_get, ensures_modify]
  cases tree with
  | some t =>
    have hrow := h.row
    apply ensures_setHead_top hr hv
    . constructor
      . exact hrow.1.at_info.isPlace_stop
      . intro l hl
        rw [List.mem_toArray, List.mem_singleton] at hl
        rw [hl]
        exact ⟨hbelow, Row.singleton hrow.1 hrow.2.1 (Nat.le_refl _), h.clean⟩
    . exact hrow.2.2
    . intro h
      exact ⟨rfl, rfl⟩
  | none =>
    apply ensures_setHead_top hr hv
    . constructor
      . exact (hr.nodeOk (r.head v).node).isPlace
      . intro l hl
        rw [List.mem_toArray, List.mem_singleton] at hl
        rw [hl]
        exact ⟨hbelow, Nat.le_refl _, h.clean⟩
    . exact h.le
    . intro h
      exact ⟨rfl, rfl⟩

/--
A head that leaves the stack stands at the place it goes to.
-/
theorem ensures_leave {place : Place} (hr : Valid env r) (hv : (r.head v).lookahead = none)
    (hplace : IsPlace env.text place) (hle : place.byte ≤ q)
    : Ensures env r (leave v place) fun _ r' => Valid env r' ∧ Frame r.heads.size v q r r' := by
  unfold leave
  simp only [ensures_bind, ensures_get, ensures_modify]
  apply Ensures.imp
  . apply ensures_setHead_top hr hv _ hle
    . intro h
      exact ⟨rfl, rfl⟩
    . refine ⟨hplace, ?_⟩
      intro l hl
      exact absurd hl (Array.not_mem_empty l)
  . rintro _ r' ⟨hr', hframe, _⟩
    exact ⟨hr', hframe⟩

/-! Merging. -/

/--
What merging does to the nodes: none is moved, and the heads stay as they are.
-/
structure Linked (env : Env) (r r' : Run) : Prop where
  valid : Valid env r'
  grows : Grows r.nodes r'.nodes
  heads_eq : r'.heads = r.heads

namespace Linked

theorem refl (hr : Valid env r) : Linked env r r := ⟨hr, Grows.refl _, rfl⟩

theorem trans (h : Linked env r r') (h' : Linked env r' r'') : Linked env r r'' :=
  ⟨h'.valid, h.grows.trans h'.grows, h'.heads_eq.trans h.heads_eq⟩

theorem still (h : Linked env r r') : Still env r r' := by
  refine ⟨h.valid, h.grows, ?_, ?_⟩
  . intro i hi
    rw [h.heads_eq]
    exact hi
  . intro i
    apply SameFoot.of_eq
    unfold Run.head
    rw [h.heads_eq]
    rfl

end Linked

/--
One node gets other links, and is not moved.
-/
theorem ensures_setNode {f : StackNode → StackNode} (hr : Valid env r)
    (hf : ∀ n, (f n).place = n.place ∧ (f n).state = n.state)
    (hlinks : ∀ l ∈ (f (r.node i)).links, LinkOk env r.nodes l (r.node i).state (r.node i).place.byte)
    : Ensures env r (setNode i f) fun _ r' => Linked env r r' :=
  ⟨hr.withNode hf hlinks, Grows.modify r.nodes hf, rfl⟩

/--
Adding several links, one after the other.
-/
theorem ensures_forIn_links {ls : Array Link} {target : Nat} {f : Link → PUnit → ParseM (ForInStep PUnit)}
    (hf : ∀ r l, Valid env r → LinkOk env r.nodes l (stateAt r.nodes target) (byteAt r.nodes target) →
      Ensures env r (f l ()) fun s r' => s = .yield () ∧ Linked env r r')
    (hr : Valid env r) (htarget : target < r.nodes.size)
    (hls : ∀ l ∈ ls, LinkOk env r.nodes l (stateAt r.nodes target) (byteAt r.nodes target))
    : Ensures env r (forIn ls PUnit.unit f) fun _ r' => Linked env r r' := by
  rw [← Array.forIn_toList]
  apply Ensures.forIn (fun xs _ r' => Linked env r r' ∧ ∀ l ∈ xs, l ∈ ls)
  . refine ⟨Linked.refl hr, ?_⟩
    intro l hl
    exact Array.mem_toList_iff.mp hl
  . rintro l xs _ r' ⟨hlinked, hxs⟩
    have hl := hlinked.grows.linkOk (hls l (hxs l List.mem_cons_self))
    rw [← hlinked.grows.state_eq target htarget, ← hlinked.grows.byteAt_eq htarget] at hl
    apply (hf r' l hlinked.valid hl).imp
    rintro _ r'' ⟨rfl, hlinked'⟩
    exact ⟨hlinked.trans hlinked', fun x hx => hxs x (List.mem_cons_of_mem l hx)⟩
  . rintro _ r' ⟨hlinked, _⟩
    exact hlinked

theorem ensures_addLink (fuel self : Nat) (link : Link) (hr : Valid env r)
    (hlink : LinkOk env r.nodes link (stateAt r.nodes self) (byteAt r.nodes self))
    : Ensures env r (addLink fuel self link) fun _ r' => Linked env r r' := by
  induction fuel generalizing self link r with
  | zero => exact Linked.refl hr
  | succ fuel ih =>
    unfold addLink
    split
    . exact Linked.refl hr
    . simp only [ensures_bind, ensures_read, ensures_node]
      rw [← Array.forIn_toList]
      -- The loop goes on only as long as nothing has changed.
      apply Ensures.forIn (fun xs s r' => s.1 = none ∧ r' = r ∧ ∀ x ∈ xs, x ∈ (r.node self).links.zipIdx)
      . refine ⟨rfl, rfl, ?_⟩
        intro x hx
        exact Array.mem_toList_iff.mp hx
      . rintro ⟨old, i⟩ xs s r' ⟨hs, rfl, hxs⟩
        have hold : (r'.node self).links[i]? = some old :=
          Array.mem_zipIdx_iff_getElem?.mp (hxs (old, i) List.mem_cons_self)
        have hok : LinkOk env r'.nodes old (r'.node self).state (r'.node self).place.byte :=
          (hr.nodeOk self).links old (Array.mem_of_getElem? hold)
        have hnext : (none : Option Unit) = none ∧ r' = r' ∧
            ∀ x ∈ xs, x ∈ (r'.node self).links.zipIdx :=
          ⟨rfl, rfl, fun x hx => hxs x (List.mem_cons_of_mem _ hx)⟩
        dsimp only
        split
        . split
          . next hnode =>
            split
            . next t u htree hold_tree =>
              split
              . rw [ensures_bind]
                apply ensures_setNode hr
                . intro n
                  exact ⟨rfl, rfl⟩
                . intro l hl
                  rcases Array.mem_iff_getElem?.mp hl with ⟨j, hj⟩
                  rw [Array.getElem?_modify] at hj
                  split at hj
                  . next hij =>
                    rw [← hij, hold, Option.map_some, Option.some.injEq, beq_iff_eq.mp hnode, ← htree] at hj
                    rw [← hj]
                    exact hlink
                  . exact (hr.nodeOk self).links l (Array.mem_of_getElem? hj)
              . exact Linked.refl hr
            . exact Linked.refl hr
          . simp only [ensures_bind, ensures_node]
            split
            . next hsame =>
              rw [Bool.and_eq_true, Bool.and_eq_true, beq_iff_eq, beq_iff_eq, beq_iff_eq] at hsame
              rw [ensures_bind]
              have hlinks (l : Link) (hl : l ∈ (r'.node link.node).links)
                  : LinkOk env r'.nodes l (stateAt r'.nodes old.node) (byteAt r'.nodes old.node) := by
                have := (hr.nodeOk link.node).links l hl
                rw [← hsame.1.1, ← hsame.1.2] at this
                exact this
              apply (ensures_forIn_links _ hr hok.lt_size hlinks).imp
              . intro _ r'' hlinked
                rw [ensures_bind]
                apply (ensures_setNode hlinked.valid _ _).imp
                . intro _ r₃ hlinked'
                  exact hlinked.trans hlinked'
                . intro n
                  exact ⟨rfl, rfl⟩
                . exact (hlinked.valid.nodeOk self).links
              . intro r l hr hl
                rw [ensures_bind]
                apply (ih old.node l hr hl).imp
                intro _ r' hlinked
                exact ⟨rfl, hlinked⟩
            . exact hnext
        . exact hnext
      . rintro s r' ⟨hs, rfl, _⟩
        rw [hs]
        dsimp only
        split
        . exact Linked.refl hr
        . apply ensures_setNode hr
          . intro n
            exact ⟨rfl, rfl⟩
          . intro l hl
            rcases Array.mem_push.mp hl with hl | rfl
            . exact (hr.nodeOk self).links l hl
            . exact hlink

/--
Merging one head into another one either does nothing or makes it go.
-/
theorem ensures_merge (hr : Valid env r)
    : Ensures env r (merge v w) fun merged r' =>
        if merged then Valid env r' ∧ Moved (skip w) r r' else r' = r := by
  unfold merge canMerge
  simp only [ensures_bind, ensures_head, ensures_top, ensures_pure]
  split
  . rfl
  . next hcan =>
    simp only [Bool.not_eq_true, Bool.not_eq_false', Bool.and_eq_true, beq_iff_eq] at hcan
    rcases hcan with ⟨⟨⟨⟨_, hstate⟩, hplace⟩, _⟩, _⟩
    simp only [ensures_bind, ensures_head, ensures_top, ensures_node]
    have hlinks (l : Link) (hl : l ∈ (r.node (r.head w).node).links)
        : LinkOk env r.nodes l (stateAt r.nodes (r.head v).node) (byteAt r.nodes (r.head v).node) := by
      have := (hr.nodeOk (r.head w).node).links l hl
      rw [← hstate, ← hplace] at this
      exact this
    apply (ensures_forIn_links _ hr (hr.headOk v).lt_size hlinks).imp
    . intro _ r' hlinked
      have hstill := hlinked.still
      split
      . rw [ensures_bind]
        have hok := hstill.valid.headOk v
        apply (ensures_setHead_still hstill.valid ⟨hok.lt_size, hok.active, hok.lookahead⟩ ⟨rfl, rfl⟩).imp
        intro _ r'' hstill'
        rw [ensures_bind]
        apply (ensures_remove hstill'.valid).imp
        rintro _ r₃ ⟨hr₃, hmoved⟩
        exact ⟨hr₃, (hstill.trans hstill').moved.trans hmoved⟩
      . rw [ensures_bind]
        apply (ensures_remove hstill.valid).imp
        rintro _ r'' ⟨hr'', hmoved⟩
        exact ⟨hr'', hstill.moved.trans hmoved⟩
    . intro r l hr hl
      simp only [ensures_bind, ensures_get]
      apply (ensures_addLink _ _ l hr hl).imp
      intro _ r' hlinked
      exact ⟨rfl, hlinked⟩

theorem ensures_merge_valid (hr : Valid env r) : Ensures env r (merge v w) fun _ r' => Valid env r' := by
  apply (ensures_merge hr).imp
  intro merged r' h
  split at h
  . exact h.1
  . rw [h]
    exact hr

end Stack

end CallFlow.Parser
