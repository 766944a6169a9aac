import CallFlow.Parser.Stack
import CallFlow.Proofs.Automaton.ErrorRow
import CallFlow.Proofs.Parser.Subtree

/-!
This module contains what holds of the parser's stack all the time (`Valid`): along every link the tree stands
between the places of the two nodes, and what a head is to read next stands behind it. Below a state that is
not the one for errors, no error is left that does not count. The primitive operations keep that, and most of
them keep most of the heads where they are.
-/

namespace CallFlow.Parser

open CallFlow.Text CallFlow.Automaton

def Run.head (r : Run) (v : Nat) : Head := r.heads.getD v default

def Run.node (r : Run) (i : Nat) : StackNode := r.nodes.getD i default

def byteAt (ns : Array StackNode) (i : Nat) : Nat := (ns.getD i default).place.byte

def stateAt (ns : Array StackNode) (i : Nat) : Nat := (ns.getD i default).state

def Run.stateOf (r : Run) (v : Nat) : Nat := stateAt r.nodes (r.head v).node

/--
`Q` holds of what `x` gives and of the run behind it.
-/
def Ensures {α : Type} (env : Env) (r : Run) (x : ParseM α) (Q : α → Run → Prop) : Prop :=
  Q ((x.run env).run r).run.1 ((x.run env).run r).run.2

section

variable {α β : Type} {env : Env} {r : Run} {v i : Nat}

theorem Ensures.imp {x : ParseM α} {P Q : α → Run → Prop} (h : Ensures env r x P)
    (hpq : ∀ a r', P a r' → Q a r') : Ensures env r x Q :=
  hpq _ _ h

theorem Ensures.and {x : ParseM α} {P Q : α → Run → Prop} (hp : Ensures env r x P) (hq : Ensures env r x Q)
    : Ensures env r x fun a r' => P a r' ∧ Q a r' :=
  ⟨hp, hq⟩

@[simp]
theorem ensures_bind {x : ParseM α} {f : α → ParseM β} {Q : β → Run → Prop}
    : Ensures env r (x >>= f) Q ↔ Ensures env r x fun a r' => Ensures env r' (f a) Q :=
  Iff.rfl

@[simp]
theorem ensures_pure {a : α} {Q : α → Run → Prop} : Ensures env r (pure a) Q ↔ Q a r := Iff.rfl

@[simp]
theorem ensures_get {Q : Run → Run → Prop} : Ensures env r get Q ↔ Q r r := Iff.rfl

@[simp]
theorem ensures_read {Q : Env → Run → Prop} : Ensures env r read Q ↔ Q env r := Iff.rfl

@[simp]
theorem ensures_modify {f : Run → Run} {Q : PUnit → Run → Prop}
    : Ensures env r (modify f) Q ↔ Q () (f r) :=
  Iff.rfl

/--
What holds of a loop: an invariant of what is left to visit, of the values that the loop changes, and of the
run.
-/
theorem Ensures.forIn {xs : List α} {b : β} {f : α → β → ParseM (ForInStep β)} {Q : β → Run → Prop}
    (Inv : List α → β → Run → Prop) (start : Inv xs b r)
    (step : ∀ x xs b r, Inv (x :: xs) b r → Ensures env r (f x b) fun s r' => match s with
      | .yield b' => Inv xs b' r'
      | .done b' => Q b' r')
    (last : ∀ b r, Inv [] b r → Q b r) : Ensures env r (forIn xs b f) Q := by
  induction xs generalizing b r with
  | nil => exact last b r start
  | cons x xs ih =>
    rw [List.forIn_cons, ensures_bind]
    apply (step x xs b r start).imp
    intro s r' hs
    cases s with
    | yield b' => exact ih hs
    | done b' => exact hs

namespace Stack

@[simp]
theorem ensures_count {Q : Nat → Run → Prop} : Ensures env r count Q ↔ Q r.heads.size r := Iff.rfl

@[simp]
theorem ensures_head {Q : Head → Run → Prop} : Ensures env r (head v) Q ↔ Q (r.head v) r := Iff.rfl

@[simp]
theorem ensures_node {Q : StackNode → Run → Prop} : Ensures env r (node i) Q ↔ Q (r.node i) r := Iff.rfl

@[simp]
theorem ensures_top {Q : StackNode → Run → Prop}
    : Ensures env r (top v) Q ↔ Q (r.node (r.head v).node) r :=
  Iff.rfl

@[simp]
theorem ensures_state {Q : Nat → Run → Prop} : Ensures env r (state v) Q ↔ Q (r.stateOf v) r := Iff.rfl

@[simp]
theorem ensures_place {Q : Place → Run → Prop}
    : Ensures env r (place v) Q ↔ Q (r.node (r.head v).node).place r :=
  Iff.rfl

@[simp]
theorem ensures_isActive {Q : Bool → Run → Prop}
    : Ensures env r (isActive v) Q ↔ Q ((r.head v).activity == .active) r :=
  Iff.rfl

@[simp]
theorem ensures_isPaused {Q : Bool → Run → Prop}
    : Ensures env r (isPaused v) Q ↔ Q ((r.head v).activity == .paused) r :=
  Iff.rfl

@[simp]
theorem ensures_isHalted {Q : Bool → Run → Prop}
    : Ensures env r (isHalted v) Q ↔ Q ((r.head v).activity == .halted) r :=
  Iff.rfl

@[simp]
theorem ensures_setHead {f : Head → Head} {Q : Unit → Run → Prop}
    : Ensures env r (setHead v f) Q ↔ Q () { r with heads := r.heads.modify v f } :=
  Iff.rfl

theorem ensures_errorCost {Q : Nat → Run → Prop} (h : ∀ cost, Q cost r) : Ensures env r (errorCost v) Q :=
  h _

theorem ensures_canMerge {w : Nat} {Q : Bool → Run → Prop} (h : ∀ can, Q can r)
    : Ensures env r (canMerge v w) Q :=
  h _

end Stack

end

/-! What holds all the time. -/

/--
The trees stand between the node `i` and the byte `q`, and with them the parser comes from that node to the
state `s`.
-/
structure Leads (env : Env) (ns : Array StackNode) (i : Nat) (ts : List Subtree) (s q : Nat) : Prop where
  row : Row env.automaton env.text (byteAt ns i) ts q
  clean : s ≠ errorState → stateAt ns i ≠ errorState ∧ ∀ t ∈ ts, ¬ t.Loose env.automaton

/--
A link leads down to a node that is there.
-/
structure LinkOk (env : Env) (ns : Array StackNode) (l : Link) (s q : Nat) : Prop where
  lt_size : l.node < ns.size
  leads : Leads env ns l.node l.tree.toList s q

structure NodeOk (env : Env) (ns : Array StackNode) (n : StackNode) : Prop where
  isPlace : IsPlace env.text n.place
  links : ∀ l ∈ n.links, LinkOk env ns l n.state n.place.byte

structure HeadOk (env : Env) (ns : Array StackNode) (h : Head) : Prop where
  lt_size : h.node < ns.size
  active : h.activity = .active → h.lookahead = none
  lookahead : ∀ t ∈ h.lookahead, Sound env.automaton env.text t ∧ byteAt ns h.node ≤ t.info.before.byte

structure Valid (env : Env) (r : Run) : Prop where
  automaton : WellBuilt env.automaton
  size_pos : 0 < r.nodes.size
  bottom : byteAt r.nodes 0 = 0
  bottom_state : stateAt r.nodes 0 ≠ errorState
  nodes : ∀ n ∈ r.nodes, NodeOk env r.nodes n
  heads : ∀ h ∈ r.heads, HeadOk env r.nodes h
  finished : ∀ t ∈ r.finished, Whole env.automaton env.text t

/--
No node is lost, and all stay in their place and state.
-/
structure Grows (ns ns' : Array StackNode) : Prop where
  size_le : ns.size ≤ ns'.size
  place_eq : ∀ i < ns.size, (ns'.getD i default).place = (ns.getD i default).place
  state_eq : ∀ i < ns.size, stateAt ns' i = stateAt ns i

/--
A head has nothing to read ahead and stands at the byte `p` or before it.
-/
structure Stands (r : Run) (v p : Nat) : Prop where
  lookahead : (r.head v).lookahead = none
  byte_le : byteAt r.nodes (r.head v).node ≤ p

/--
Two heads stand on the same node and have the same to read ahead.
-/
structure SameFoot (h h' : Head) : Prop where
  node : h'.node = h.node
  lookahead : h'.lookahead = h.lookahead

variable {env : Env} {r r' r'' : Run} {ns ns' ns'' : Array StackNode} {v w i p q s : Nat} {h h' : Head}
  {l : Link} {n : StackNode} {t : Subtree} {ts us : List Subtree}

namespace Leads

theorem le (h : Leads env ns i ts s q) : byteAt ns i ≤ q := h.row.le

theorem nil (hle : byteAt ns i ≤ q) (h : s ≠ errorState → stateAt ns i ≠ errorState)
    : Leads env ns i [] s q := by
  refine ⟨hle, fun hs => ⟨h hs, ?_⟩⟩
  intro t ht
  contradiction

/--
Two ways that meet at a node are one.
-/
theorem append (h : Leads env ns i ts (stateAt ns w) (byteAt ns w)) (h' : Leads env ns w us s q)
    : Leads env ns i (ts ++ us) s q := by
  refine ⟨h.row.append h'.row, ?_⟩
  intro hs
  have hus := h'.clean hs
  have hts := h.clean hus.1
  exact ⟨hts.1, List.forall_mem_append.mpr ⟨hts.2, hus.2⟩⟩

theorem addDynamic (h : Leads env ns i (t :: ts) s q) (d : Int)
    : Leads env ns i (t.addDynamic d :: ts) s q := by
  refine ⟨h.row.addDynamic d, ?_⟩
  intro hs
  rw [List.forall_mem_cons, Subtree.loose_addDynamic]
  exact ⟨(h.clean hs).1, List.forall_mem_cons.mp (h.clean hs).2⟩

theorem setExtra (h : Leads env ns i (t :: ts) s q) {b : Bool} (hb : b → ¬ t.Loose env.automaton)
    : Leads env ns i (t.setExtra b :: ts) s q := by
  refine ⟨h.row.setExtra hb, ?_⟩
  intro hs
  rw [List.forall_mem_cons, Subtree.loose_setExtra]
  exact ⟨(h.clean hs).1, List.forall_mem_cons.mp (h.clean hs).2⟩

end Leads

theorem SameFoot.refl (h : Head) : SameFoot h h := ⟨rfl, rfl⟩

theorem SameFoot.of_eq (hh : h' = h) : SameFoot h h' := by
  rw [hh]
  exact SameFoot.refl h

theorem SameFoot.trans {h'' : Head} (hhead : SameFoot h h') (hhead' : SameFoot h' h'') : SameFoot h h'' :=
  ⟨hhead'.node.trans hhead.node, hhead'.lookahead.trans hhead.lookahead⟩

namespace Grows

theorem refl (ns : Array StackNode) : Grows ns ns := ⟨Nat.le_refl _, fun _ _ => rfl, fun _ _ => rfl⟩

theorem trans (hgrows : Grows ns ns') (hgrows' : Grows ns' ns'') : Grows ns ns'' := by
  refine ⟨Nat.le_trans hgrows.size_le hgrows'.size_le, ?_, ?_⟩
  . intro i hi
    have := hgrows.size_le
    rw [hgrows'.place_eq i (by omega), hgrows.place_eq i hi]
  . intro i hi
    have := hgrows.size_le
    rw [hgrows'.state_eq i (by omega), hgrows.state_eq i hi]

theorem push (ns : Array StackNode) (n : StackNode) : Grows ns (ns.push n) := by
  have hnode (i : Nat) (hi : i < ns.size) : (ns.push n).getD i default = ns.getD i default := by
    rw [Array.getD_eq_getD_getElem?, Array.getElem?_push_lt hi, Array.getD_eq_getD_getElem?,
      Array.getElem?_eq_getElem hi]
  constructor
  . rw [Array.size_push]
    omega
  . intro i hi
    rw [hnode i hi]
  . intro i hi
    unfold stateAt
    rw [hnode i hi]

theorem modify (ns : Array StackNode) {f : StackNode → StackNode}
    (hf : ∀ n, (f n).place = n.place ∧ (f n).state = n.state) : Grows ns (ns.modify i f) := by
  have hnode (j : Nat) (hj : j < ns.size)
      : ((ns.modify i f).getD j default).place = (ns.getD j default).place ∧
          ((ns.modify i f).getD j default).state = (ns.getD j default).state := by
    rw [Array.getD_eq_getD_getElem?, Array.getD_eq_getD_getElem?, Array.getElem?_modify,
      Array.getElem?_eq_getElem hj]
    split
    . exact hf _
    . exact ⟨rfl, rfl⟩
  constructor
  . exact Nat.le_of_eq (Array.size_modify).symm
  . intro j hj
    exact (hnode j hj).1
  . intro j hj
    exact (hnode j hj).2

theorem byteAt_eq (hgrows : Grows ns ns') (hi : i < ns.size) : byteAt ns' i = byteAt ns i := by
  unfold byteAt
  rw [hgrows.place_eq i hi]

theorem leads (hgrows : Grows ns ns') (hi : i < ns.size) (h : Leads env ns i ts s q)
    : Leads env ns' i ts s q := by
  constructor
  . rw [hgrows.byteAt_eq hi]
    exact h.row
  . rw [hgrows.state_eq i hi]
    exact h.clean

theorem linkOk (hgrows : Grows ns ns') (h : LinkOk env ns l s q) : LinkOk env ns' l s q :=
  ⟨Nat.lt_of_lt_of_le h.lt_size hgrows.size_le, hgrows.leads h.lt_size h.leads⟩

theorem nodeOk (hgrows : Grows ns ns') (h : NodeOk env ns n) : NodeOk env ns' n :=
  ⟨h.isPlace, fun l hl => hgrows.linkOk (h.links l hl)⟩

theorem headOk (hgrows : Grows ns ns') (hok : HeadOk env ns h) : HeadOk env ns' h := by
  refine ⟨Nat.lt_of_lt_of_le hok.lt_size hgrows.size_le, hok.active, ?_⟩
  rw [hgrows.byteAt_eq hok.lt_size]
  exact hok.lookahead

end Grows

theorem Run.head_eq_default (hv : r.heads.size ≤ v) : r.head v = default := by
  unfold Run.head
  rw [Array.getD_eq_getD_getElem?, Array.getElem?_eq_none hv, Option.getD_none]

namespace Valid

theorem nodeOk (hr : Valid env r) (i : Nat) : NodeOk env r.nodes (r.node i) := by
  unfold Run.node
  rw [Array.getD_eq_getD_getElem?]
  cases hi : r.nodes[i]? with
  | none =>
    refine ⟨IsPlace.origin env.text, ?_⟩
    intro l hl
    exact absurd hl (Array.not_mem_empty l)
  | some n => exact hr.nodes n (Array.mem_of_getElem? hi)

theorem headOk (hr : Valid env r) (v : Nat) : HeadOk env r.nodes (r.head v) := by
  unfold Run.head
  rw [Array.getD_eq_getD_getElem?]
  cases hv : r.heads[v]? with
  | none => exact ⟨hr.size_pos, fun _ => rfl, fun t ht => nomatch ht⟩
  | some h => exact hr.heads h (Array.mem_of_getElem? hv)

theorem withHeads (hr : Valid env r) {hs : Array Head} (hhs : ∀ h ∈ hs, HeadOk env r.nodes h)
    : Valid env { r with heads := hs } :=
  { hr with heads := hhs }

theorem finish (hr : Valid env r) {o : Option Subtree} {k : Nat}
    (ho : ∀ t ∈ o, Whole env.automaton env.text t)
    : Valid env { r with finished := o, accepted := k } :=
  { hr with finished := ho }

theorem stateOf_ne (hr : Valid env r) (hv : r.heads.size ≤ v) : r.stateOf v ≠ errorState := by
  unfold Run.stateOf
  rw [Run.head_eq_default hv]
  exact hr.bottom_state

/--
A change of one node that leaves it in its place and state.
-/
theorem withNode (hr : Valid env r) {f : StackNode → StackNode}
    (hf : ∀ n, (f n).place = n.place ∧ (f n).state = n.state)
    (hlinks : ∀ l ∈ (f (r.node i)).links, LinkOk env r.nodes l (r.node i).state (r.node i).place.byte)
    : Valid env { r with nodes := r.nodes.modify i f } := by
  have hgrows := Grows.modify r.nodes hf (i := i)
  constructor
  . exact hr.automaton
  . rw [Array.size_modify]
    exact hr.size_pos
  . rw [hgrows.byteAt_eq hr.size_pos]
    exact hr.bottom
  . rw [hgrows.state_eq 0 hr.size_pos]
    exact hr.bottom_state
  . intro n hn
    rw [Array.mem_iff_getElem?] at hn
    rcases hn with ⟨j, hj⟩
    rw [Array.getElem?_modify] at hj
    split at hj
    . next hij =>
      rcases Option.map_eq_some_iff.mp hj with ⟨m, hm, rfl⟩
      have hnode : r.node i = m := by
        unfold Run.node
        rw [hij, Array.getD_eq_getD_getElem?, hm, Option.getD_some]
      rw [hnode] at hlinks
      constructor
      . rw [(hf m).1]
        exact (hr.nodes m (Array.mem_of_getElem? hm)).isPlace
      . intro l hl
        rw [(hf m).1, (hf m).2]
        exact hgrows.linkOk (hlinks l hl)
    . exact hgrows.nodeOk (hr.nodes n (Array.mem_of_getElem? hj))
  . intro h hh
    exact hgrows.headOk (hr.heads h hh)
  . exact hr.finished

end Valid

namespace Stands

theorem of_le (h : Stands r v p) (hle : p ≤ q) : Stands r v q := ⟨h.lookahead, Nat.le_trans h.byte_le hle⟩

/--
A head that is kept where it is goes on standing there.
-/
theorem keep (h : Stands r v p) (hr : Valid env r) (hgrows : Grows r.nodes r'.nodes)
    (hfoot : SameFoot (r.head v) (r'.head w)) : Stands r' w p := by
  constructor
  . rw [hfoot.lookahead]
    exact h.lookahead
  . rw [hfoot.node, hgrows.byteAt_eq (hr.headOk v).lt_size]
    exact h.byte_le

/--
A head that is not there counts as one at the bottom.
-/
theorem of_size_le (hr : Valid env r) (hv : r.heads.size ≤ v) : Stands r v p := by
  constructor
  . rw [Run.head_eq_default hv]
    rfl
  . rw [Run.head_eq_default hv]
    exact Nat.le_trans (Nat.le_of_eq hr.bottom) (Nat.zero_le p)

end Stands

/--
A head that is kept where it is goes on being in its state.
-/
theorem SameFoot.stateOf_eq (h : SameFoot (r.head v) (r'.head w)) (hr : Valid env r)
    (hgrows : Grows r.nodes r'.nodes) : r'.stateOf w = r.stateOf v := by
  unfold Run.stateOf
  rw [h.node]
  exact hgrows.state_eq _ (hr.headOk v).lt_size

/-! Heads. -/

section

variable (hs : Array Head)

theorem getD_modify (f : Head → Head)
    : (hs.modify v f).getD w default
        = if v = w ∧ w < hs.size then f (hs.getD w default) else hs.getD w default := by
  simp only [Array.getD_eq_getD_getElem?, Array.getElem?_modify]
  split
  . next hvw =>
    by_cases hw : w < hs.size
    . rw [if_pos ⟨hvw, hw⟩, Array.getElem?_eq_getElem hw]
      rfl
    . rw [if_neg fun hand => hw hand.2, Array.getElem?_eq_none (Nat.le_of_not_lt hw)]
      rfl
  . next hvw => rw [if_neg fun hand => hvw hand.1]

theorem getD_modify_of_ne (f : Head → Head) (h : w ≠ v)
    : (hs.modify v f).getD w default = hs.getD w default := by
  rw [getD_modify, if_neg fun hand => h hand.1.symm]

theorem getD_erase
    : (hs.eraseIdxIfInBounds v).getD w default
        = if w < v then hs.getD w default else hs.getD (w + 1) default := by
  simp only [Array.getD_eq_getD_getElem?, ← Array.getElem?_toList, Array.toList_eraseIdxIfInBounds,
    List.getElem?_eraseIdx]
  split
  . rfl
  . rfl

theorem getD_push : (hs.push h).getD w default = if w = hs.size then h else hs.getD w default := by
  simp only [Array.getD_eq_getD_getElem?, Array.getElem?_push]
  split
  . rfl
  . rfl

end

theorem mem_modify {hs : Array Head} {f : Head → Head} (hh : h ∈ hs.modify v f)
    : h ∈ hs ∨ v < hs.size ∧ h = f (hs.getD v default) := by
  rcases Array.mem_iff_getElem?.mp hh with ⟨j, hj⟩
  rw [Array.getElem?_modify] at hj
  split at hj
  . next hvj =>
    rcases Option.map_eq_some_iff.mp hj with ⟨x, hx, rfl⟩
    right
    rw [hvj, Array.getD_eq_getD_getElem?, hx, Option.getD_some]
    exact ⟨(Array.getElem?_eq_some_iff.mp hx).1, rfl⟩
  . left
    exact Array.mem_of_getElem? hj

theorem mem_erase {hs : Array Head} (hh : h ∈ hs.eraseIdxIfInBounds v) : h ∈ hs := by
  rw [← Array.mem_toList_iff, Array.toList_eraseIdxIfInBounds] at hh
  exact Array.mem_toList_iff.mp (List.mem_of_mem_eraseIdx hh)

/--
The head that stands at the index `i` once the one at `w` is gone.
-/
def skip (w i : Nat) : Nat := if i < w then i else i + 1

/--
Every head stands where another one stood, and `old` tells which.
-/
structure Moved (old : Nat → Nat) (r r' : Run) : Prop where
  grows : Grows r.nodes r'.nodes
  lt_size : ∀ i, old i < r.heads.size → i < r'.heads.size
  foot : ∀ i, SameFoot (r.head (old i)) (r'.head i)

/--
How a run has come from another one: the first `k` heads are there and are kept where they were, only `v` is
not, and that one and all the heads behind them stand at the byte `p` or before it.
-/
structure Frame (k v p : Nat) (r r' : Run) : Prop where
  grows : Grows r.nodes r'.nodes
  le_size : k ≤ r'.heads.size
  kept : ∀ i < k, i ≠ v → SameFoot (r.head i) (r'.head i)
  fresh : ∀ i, k ≤ i ∨ i = v → Stands r' i p

/--
No head has gone that was there.
-/
structure Onward (env : Env) (r r' : Run) : Prop where
  valid : Valid env r'
  size_le : r.heads.size ≤ r'.heads.size

/--
Nothing has changed that counts: all heads are where they were.
-/
structure Still (env : Env) (r r' : Run) : Prop where
  valid : Valid env r'
  moved : Moved id r r'

namespace Moved

variable {old old' : Nat → Nat}

theorem refl (r : Run) : Moved id r r :=
  ⟨Grows.refl r.nodes, fun _ hi => hi, fun i => SameFoot.refl (r.head i)⟩

theorem trans (h : Moved old r r') (h' : Moved old' r' r'') : Moved (old ∘ old') r r'' :=
  ⟨h.grows.trans h'.grows, fun i hi => h'.lt_size i (h.lt_size (old' i) hi),
    fun i => (h.foot (old' i)).trans (h'.foot i)⟩

theorem size_le (h : Moved id r r') : r.heads.size ≤ r'.heads.size := by
  apply Nat.le_of_not_lt
  intro hlt
  exact Nat.lt_irrefl _ (h.lt_size _ hlt)

theorem stands (h : Moved old r r') (hr : Valid env r) (hi : Stands r (old i) p) : Stands r' i p :=
  hi.keep hr h.grows (h.foot i)

theorem erase (r : Run) (w : Nat) : Moved (skip w) r { r with heads := r.heads.eraseIdxIfInBounds w } := by
  refine ⟨Grows.refl r.nodes, ?_, ?_⟩
  . intro i hi
    unfold skip at hi
    dsimp only
    rw [← Array.length_toList, Array.toList_eraseIdxIfInBounds, List.length_eraseIdx, Array.length_toList]
    split at hi
    . split
      . omega
      . exact hi
    . split
      . omega
      . omega
  . intro i
    apply SameFoot.of_eq
    unfold Run.head skip
    rw [getD_erase]
    split
    . rfl
    . rfl

theorem size_le_succ (h : Moved (skip w) r r') : r.heads.size ≤ r'.heads.size + 1 := by
  apply Nat.le_of_not_lt
  intro hlt
  apply Nat.lt_irrefl r'.heads.size
  apply h.lt_size
  unfold skip
  split
  . exact Nat.lt_of_succ_lt hlt
  . exact hlt

/--
The heads before the one that goes stay.
-/
theorem le_size {k : Nat} (h : Moved (skip w) r r') (hw : k ≤ w) (hle : k ≤ r.heads.size)
    : k ≤ r'.heads.size := by
  apply Nat.le_of_not_lt
  intro hlt
  apply Nat.lt_irrefl r'.heads.size
  apply h.lt_size
  unfold skip
  rw [if_pos (Nat.lt_of_lt_of_le hlt hw)]
  exact Nat.lt_of_lt_of_le hlt hle

theorem modify {f : Head → Head} (hf : SameFoot (r.head v) (f (r.head v)))
    : Moved id r { r with heads := r.heads.modify v f } := by
  refine ⟨Grows.refl r.nodes, ?_, ?_⟩
  . intro i hi
    exact Nat.lt_of_lt_of_eq hi Array.size_modify.symm
  . intro i
    unfold Run.head at hf ⊢
    rw [getD_modify]
    split
    . next hand =>
      rw [hand.1] at hf
      exact hf
    . exact SameFoot.refl _

end Moved

namespace Frame

variable {k k' : Nat}

theorem refl (hr : Valid env r) (hv : Stands r v p) : Frame r.heads.size v p r r := by
  refine ⟨Grows.refl r.nodes, Nat.le_refl _, fun i _ _ => SameFoot.refl (r.head i), ?_⟩
  rintro i (hi | rfl)
  . exact Stands.of_size_le hr hi
  . exact hv

theorem self (hr : Valid env r) : Frame r.heads.size r.heads.size p r r :=
  refl hr (Stands.of_size_le hr (Nat.le_refl _))

theorem stateOf_eq (h : Frame k v p r r') (hr : Valid env r) (hi : i < k) (hne : i ≠ v)
    : r'.stateOf i = r.stateOf i :=
  (h.kept i hi hne).stateOf_eq hr h.grows

theorem of_le (h : Frame k v p r r') (hle : p ≤ q) : Frame k v q r r' :=
  ⟨h.grows, h.le_size, h.kept, fun i hi => (h.fresh i hi).of_le hle⟩

theorem trans (h : Frame k v p r r') (h' : Frame k' w q r' r'') (hr : Valid env r') (hk : k ≤ k')
    (hw : w < k → w = v) (hle : q ≤ p) : Frame k v p r r'' := by
  refine ⟨h.grows.trans h'.grows, Nat.le_trans hk h'.le_size, ?_, ?_⟩
  . intro i hi hv
    apply (h.kept i hi hv).trans
    apply h'.kept i (Nat.lt_of_lt_of_le hi hk)
    rintro rfl
    exact hv (hw hi)
  . intro i hi
    by_cases hi' : k' ≤ i ∨ i = w
    . exact (h'.fresh i hi').of_le hle
    . rw [not_or, Nat.not_le] at hi'
      exact (h.fresh i hi).keep hr h'.grows (h'.kept i hi'.1 hi'.2)

/--
Only new heads are made on the way from `r'` to `r''`.
-/
theorem beside (h : Frame k v p r r') (h' : Frame r'.heads.size r'.heads.size p r' r'') (hr : Valid env r')
    : Frame k v p r r'' := by
  apply h.trans h' hr h.le_size _ (Nat.le_refl p)
  intro hlt
  exact absurd h.le_size (Nat.not_le_of_lt hlt)

/--
A head that stands at the byte `p` need not count as kept.
-/
theorem except (h : Frame k k p r r') (hv : Stands r' v p) : Frame k v p r r' := by
  refine ⟨h.grows, h.le_size, fun i hi _ => h.kept i hi (Nat.ne_of_lt hi), ?_⟩
  rintro i (hi | rfl)
  . exact h.fresh i (.inl hi)
  . exact hv

/--
A head that stands at the byte `p` goes on standing there.
-/
theorem stands (h : Frame k k p r r') (hr : Valid env r) (hv : Stands r v p) : Stands r' v p := by
  by_cases hlt : v < k
  . exact hv.keep hr h.grows (h.kept v hlt (Nat.ne_of_lt hlt))
  . exact h.fresh v (.inl (Nat.le_of_not_lt hlt))

theorem moved {old : Nat → Nat} (h : Frame k v p r r') (h' : Moved old r' r'') (hr : Valid env r')
    (hold : ∀ i < k, old i = i) (hle : ∀ i, k ≤ i → k ≤ old i) : Frame k v p r r'' := by
  refine ⟨h.grows.trans h'.grows, ?_, ?_, ?_⟩
  . by_contra hlt
    rw [Nat.not_le] at hlt
    have := h'.lt_size r''.heads.size
    rw [hold _ hlt] at this
    exact Nat.lt_irrefl _ (this (Nat.lt_of_lt_of_le hlt h.le_size))
  . intro i hi hv
    have hfoot := h'.foot i
    rw [hold i hi] at hfoot
    exact (h.kept i hi hv).trans hfoot
  . intro i hi
    apply h'.stands hr
    apply h.fresh
    by_cases hik : k ≤ i
    . exact .inl (hle i hik)
    . rw [hold i (Nat.lt_of_not_le hik)]
      exact hi

theorem still (h : Frame k v p r r') (h' : Still env r' r'') (hr : Valid env r') : Frame k v p r r'' :=
  h.moved h'.moved hr (fun _ _ => rfl) fun _ hi => hi

/--
A head behind those that are kept can go.
-/
theorem skip (h : Frame k v p r r') (h' : Moved (skip w) r' r'') (hr : Valid env r') (hw : k ≤ w)
    : Frame k v p r r'' := by
  apply h.moved h' hr
  . intro i hi
    exact if_pos (Nat.lt_of_lt_of_le hi hw)
  . intro i hi
    unfold Parser.skip
    split
    . exact hi
    . omega

end Frame

namespace Onward

theorem refl (hr : Valid env r) : Onward env r r := ⟨hr, Nat.le_refl _⟩

theorem trans (h : Onward env r r') (h' : Onward env r' r'') : Onward env r r'' :=
  ⟨h'.valid, Nat.le_trans h.size_le h'.size_le⟩

/--
What goes on from a run goes on from where that one comes from.
-/
theorem ensures {α : Type} {x : ParseM α} (h : Onward env r r')
    (hx : Ensures env r' x fun _ r'' => Onward env r' r'') : Ensures env r' x fun _ r'' => Onward env r r'' :=
  hx.imp fun _ _ h' => h.trans h'

end Onward

theorem Frame.onward (h : Frame r.heads.size v p r r') (hr' : Valid env r') : Onward env r r' :=
  ⟨hr', h.le_size⟩

namespace Still

theorem onward (h : Still env r r') : Onward env r r' := ⟨h.valid, h.moved.size_le⟩

theorem refl (hr : Valid env r) : Still env r r := ⟨hr, Moved.refl r⟩

theorem trans (h : Still env r r') (h' : Still env r' r'') : Still env r r'' :=
  ⟨h'.valid, h.moved.trans h'.moved⟩

end Still

namespace Valid

theorem erase (hr : Valid env r) (w : Nat) : Valid env { r with heads := r.heads.eraseIdxIfInBounds w } :=
  hr.withHeads fun h hh => hr.heads h (mem_erase hh)

theorem modify (hr : Valid env r) {f : Head → Head} (hf : HeadOk env r.nodes (f (r.head v)))
    : Valid env { r with heads := r.heads.modify v f } := by
  apply hr.withHeads
  intro h hh
  rcases mem_modify hh with hh | ⟨_, rfl⟩
  . exact hr.heads h hh
  . exact hf

end Valid

namespace Stack

/--
A head that is put elsewhere, with nothing to read ahead. One that is not there counts as one at the bottom.
-/
theorem ensures_setHead_frame {f : Head → Head} (hr : Valid env r) (hok : HeadOk env r.nodes (f (r.head v)))
    (hlook : (f (r.head v)).lookahead = none) (hbyte : byteAt r.nodes (f (r.head v)).node ≤ p)
    : Ensures env r (setHead v f) fun _ r' =>
        Valid env r' ∧ Frame r.heads.size v p r r' ∧
          (stateAt r.nodes (f (r.head v)).node ≠ errorState → r'.stateOf v ≠ errorState) := by
  rw [ensures_setHead]
  have hvalid := hr.modify hok
  have hsize : (r.heads.modify v f).size = r.heads.size := Array.size_modify
  have hhead (hlt : v < r.heads.size)
      : Run.head { r with heads := r.heads.modify v f } v = f (r.head v) :=
    (getD_modify r.heads f).trans (if_pos ⟨rfl, hlt⟩)
  refine ⟨hvalid, ⟨Grows.refl r.nodes, Nat.le_of_eq hsize.symm, ?_, ?_⟩, ?_⟩
  . intro i _ hi
    exact SameFoot.of_eq (getD_modify_of_ne r.heads f hi)
  . intro i hi
    by_cases hlt : i < r.heads.size
    . have hiv : i = v := hi.resolve_left (Nat.not_le_of_lt hlt)
      rw [hiv] at hlt ⊢
      constructor
      . rw [hhead hlt]
        exact hlook
      . rw [hhead hlt]
        exact hbyte
    . apply Stands.of_size_le hvalid
      dsimp only
      omega
  . intro hstate
    by_cases hlt : v < r.heads.size
    . unfold Run.stateOf
      rw [hhead hlt]
      exact hstate
    . apply hvalid.stateOf_ne
      dsimp only
      omega

theorem ensures_setHead_still {f : Head → Head} (hr : Valid env r) (hok : HeadOk env r.nodes (f (r.head v)))
    (hfoot : SameFoot (r.head v) (f (r.head v)))
    : Ensures env r (setHead v f) fun _ r' => Still env r r' :=
  ⟨hr.modify hok, Moved.modify hfoot⟩

theorem ensures_remove (hr : Valid env r)
    : Ensures env r (remove w) fun _ r' => Valid env r' ∧ Moved (skip w) r r' :=
  ⟨hr.erase w, Moved.erase r w⟩

/--
What holds of the run when the heads behind the first `k` are gone.
-/
structure Kept (env : Env) (k : Nat) (r r' : Run) : Prop where
  valid : Valid env r'
  nodes_eq : r'.nodes = r.nodes
  size_eq : r'.heads.size = min k r.heads.size
  head_eq : ∀ i < k, r'.head i = r.head i

theorem ensures_keepFirst {k : Nat} (hr : Valid env r)
    : Ensures env r (keepFirst k) fun _ r' => Kept env k r r' := by
  unfold keepFirst
  rw [ensures_modify]
  constructor
  . apply hr.withHeads
    intro h hh
    exact hr.heads h (Array.mem_toList_iff.mp (List.mem_of_mem_take (List.mem_toArray.mp hh)))
  . rfl
  . dsimp only
    rw [List.size_toArray, List.length_take, Array.length_toList]
  . intro i hi
    unfold Run.head
    dsimp only
    rw [Array.getD_eq_getD_getElem?, List.getElem?_toArray, List.getElem?_take_of_lt hi,
      Array.getD_eq_getD_getElem?, Array.getElem?_toList]

theorem ensures_halt (hr : Valid env r) : Ensures env r (halt v) fun _ r' => Still env r r' := by
  have hok := hr.headOk v
  apply ensures_setHead_still hr
  . refine ⟨hok.lt_size, ?_, hok.lookahead⟩
    intro hactive
    contradiction
  . exact ⟨rfl, rfl⟩

theorem ensures_halt_onward (hr : Valid env r) : Ensures env r (halt v) fun _ r' => Onward env r r' :=
  (ensures_halt hr).imp fun _ _ hstill => hstill.onward

theorem ensures_nodesSinceError (hr : Valid env r)
    : Ensures env r (nodesSinceError v) fun _ r' => Still env r r' := by
  have hok := hr.headOk v
  unfold nodesSinceError
  simp only [ensures_bind, ensures_top, ensures_head, ensures_pure]
  apply ensures_setHead_still hr
  . exact ⟨hok.lt_size, hok.active, hok.lookahead⟩
  . exact ⟨rfl, rfl⟩

theorem ensures_pause {t : Subtree} (hr : Valid env r) (ht : Sound env.automaton env.text t)
    (hv : byteAt r.nodes (r.head v).node ≤ t.info.before.byte)
    : Ensures env r (pause v t) fun _ r' => Onward env r r' := by
  unfold pause
  simp only [ensures_bind, ensures_top]
  refine ⟨hr.modify ?_, Nat.le_of_eq Array.size_modify.symm⟩
  refine ⟨(hr.headOk v).lt_size, ?_, ?_⟩
  . intro hactive
    contradiction
  . rintro _ ⟨⟩
    exact ⟨ht, hv⟩

theorem ensures_resume (hr : Valid env r)
    : Ensures env r (resume v) fun t r' =>
        Onward env r r' ∧ t = (r.head v).lookahead ∧ Stands r' v (byteAt r.nodes (r.head v).node) := by
  unfold resume
  simp only [ensures_bind, ensures_head]
  have hok : HeadOk env r.nodes { r.head v with activity := .active, lookahead := none } := by
    refine ⟨(hr.headOk v).lt_size, fun _ => rfl, ?_⟩
    intro t ht
    contradiction
  apply (ensures_setHead_frame hr hok rfl (Nat.le_refl _)).imp
  rintro _ r' ⟨hr', hframe, _⟩
  exact ⟨hframe.onward hr', rfl, hframe.fresh v (.inr rfl)⟩

theorem ensures_swap (hr : Valid env r) : Ensures env r (swap v w) fun _ r' => Valid env r' := by
  unfold swap
  simp only [ensures_bind, ensures_head]
  have hvalid : Valid env { r with heads := r.heads.modify v fun _ => r.head w } := hr.modify (hr.headOk w)
  exact hvalid.modify (hr.headOk v)

/--
A copy of a head stands where the head stands.
-/
theorem ensures_copy (hr : Valid env r) (hv : Stands r v p)
    : Ensures env r (copy v) fun k r' =>
        k = r.heads.size ∧ Valid env r' ∧ Frame r.heads.size r.heads.size p r r' ∧
          SameFoot (r.head v) (r'.head k) := by
  unfold copy
  simp only [ensures_bind, ensures_head, ensures_count, ensures_modify, ensures_pure]
  have hok := hr.headOk v
  generalize hnew : ({ r.head v with passed := none } : Head) = new
  have hsame : SameFoot (r.head v) new := by
    rw [← hnew]
    exact ⟨rfl, rfl⟩
  have hsize : (r.heads.push new).size = r.heads.size + 1 := Array.size_push new
  have hvalid : Valid env { r with heads := r.heads.push new } := by
    apply hr.withHeads
    intro h hh
    rcases Array.mem_push.mp hh with hh | rfl
    . exact hr.heads h hh
    . rw [← hnew]
      exact ⟨hok.lt_size, hok.active, hok.lookahead⟩
  have hfoot : SameFoot (r.head v) (Run.head { r with heads := r.heads.push new } r.heads.size) := by
    unfold Run.head at hsame ⊢
    rw [getD_push, if_pos rfl]
    exact hsame
  refine ⟨trivial, hvalid, ⟨Grows.refl r.nodes, ?_, ?_, ?_⟩, hfoot⟩
  . dsimp only
    omega
  . intro i hi _
    apply SameFoot.of_eq
    exact (getD_push r.heads).trans (if_neg (Nat.ne_of_lt hi))
  . intro i hi
    by_cases heq : i = r.heads.size
    . rw [heq]
      exact hv.keep hr (Grows.refl r.nodes) hfoot
    . apply Stands.of_size_le hvalid
      dsimp only
      omega

theorem ensures_renumber (hr : Valid env r) (hvw : v ≠ w) (hw : Stands r w p)
    : Ensures env r (renumber w v) fun _ r'' =>
        ∃ r', Valid env r' ∧ Frame r.heads.size v p r r' ∧
          (r.stateOf w ≠ errorState → r'.stateOf v ≠ errorState) ∧ Valid env r'' ∧ Moved (skip w) r' r'' := by
  have hok := hr.headOk w
  unfold renumber
  split
  . next heq =>
    rw [beq_iff_eq] at heq
    exact absurd heq.symm hvw
  . simp only [ensures_bind, ensures_head]
    apply Ensures.imp
    . apply ensures_setHead_frame (p := p) hr
      . exact ⟨hok.lt_size, hok.active, hok.lookahead⟩
      . exact hw.lookahead
      . exact hw.byte_le
    . rintro _ r' ⟨hr', hframe, hstate⟩
      apply (ensures_remove hr').imp
      rintro _ r'' ⟨hr'', hmoved⟩
      exact ⟨r', hr', hframe, hstate, hr'', hmoved⟩

/--
A head is put in the place of another one, which stands before it.
-/
theorem ensures_renumber_stands (hr : Valid env r) (hv : v ≤ w) (hw : Stands r w p)
    (hlt : w < r.heads.size)
    : Ensures env r (renumber w v) fun _ r' =>
        Valid env r' ∧ Stands r' v p ∧ (r.stateOf w ≠ errorState → r'.stateOf v ≠ errorState) ∧
          w ≤ r'.heads.size := by
  by_cases hvw : v = w
  . unfold renumber
    rw [hvw, if_pos (beq_self_eq_true w)]
    exact ⟨hr, hw, id, Nat.le_of_lt hlt⟩
  . apply (ensures_renumber hr hvw hw).imp
    rintro _ r'' ⟨r', hr', hframe, hstate, hr'', hmoved⟩
    have hskip : skip w v = v := if_pos (Nat.lt_of_le_of_ne hv hvw)
    have hle := Nat.le_trans (Nat.le_of_lt hlt) hframe.le_size
    refine ⟨hr'', hmoved.stands hr' ?_, ?_, hmoved.le_size (Nat.le_refl w) hle⟩
    . rw [hskip]
      exact hframe.fresh v (.inr rfl)
    . have hfoot := hmoved.foot v
      rw [hskip] at hfoot
      rw [hfoot.stateOf_eq hr' hmoved.grows]
      exact hstate

theorem ensures_renumber_frame {k x : Nat} {r₀ : Run} (hr : Valid env r) (h : Frame k x p r₀ r)
    (hv : v = x ∨ k ≤ v) (hw : k ≤ w)
    : Ensures env r (renumber w v) fun _ r' => Valid env r' ∧ Frame k x p r₀ r' := by
  by_cases hvw : v = w
  . unfold renumber
    rw [hvw, if_pos (beq_self_eq_true w)]
    exact ⟨hr, h⟩
  . apply (ensures_renumber hr hvw (h.fresh w (.inl hw))).imp
    rintro _ r'' ⟨r', hr', hframe, _, hr'', hmoved⟩
    have hframe := h.trans hframe hr h.le_size (fun hlt => hv.resolve_right (Nat.not_le_of_lt hlt))
      (Nat.le_refl p)
    exact ⟨hr'', hframe.skip hmoved hr' hw⟩

end Stack

end CallFlow.Parser
