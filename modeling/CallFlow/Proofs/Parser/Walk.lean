import Mathlib.Data.List.InsertIdx
import CallFlow.Proofs.Parser.Stack

/-!
This module contains what walks down from a head bring back (`ensures_walk`): for each way down the trees of
it, which stand one behind the other between the node where it ends and the head. The heads that are made for
the nodes come behind all others, and the slices are in their order.
-/

namespace CallFlow.Parser

open CallFlow.Text CallFlow.Automaton

namespace Stack

variable {env : Env} {r r' r₀ : Run} {v p q state : Nat} {w : Walker} {slices : Array Slice}

/--
The trees of a walker lead from its node to where it comes from.
-/
structure WalkerOk (env : Env) (ns : Array StackNode) (state q : Nat) (w : Walker) : Prop where
  lt_size : w.node < ns.size
  leads : Leads env ns w.node w.trees state q

/--
What a walk has done to the run, and what the slices are that it has brought back.
-/
structure Walked (env : Env) (state q : Nat) (r r' : Run) (slices : Array Slice) : Prop where
  valid : Valid env r'
  nodes_eq : r'.nodes = r.nodes
  frame : Frame r.heads.size r.heads.size q r r'
  sorted : slices.toList.Pairwise fun s t => s.head ≤ t.head
  slice : ∀ s ∈ slices, r.heads.size ≤ s.head ∧ s.head < r'.heads.size ∧
    Leads env r'.nodes (r'.head s.head).node s.trees state q

theorem WalkerOk.follow {l : Link} (h : WalkerOk env r.nodes state q w)
    (hl : LinkOk env r.nodes l (stateAt r.nodes w.node) (byteAt r.nodes w.node))
    : WalkerOk env r.nodes state q (w.follow l) := by
  have hleads := hl.leads.append h.leads
  refine ⟨hl.lt_size, ?_⟩
  unfold Walker.follow
  dsimp only
  cases htree : l.tree with
  | none =>
    rw [htree] at hleads
    exact hleads
  | some t =>
    rw [htree] at hleads
    exact hleads

/--
A slice goes behind another one of the same head.
-/
theorem pairwise_insertIdx {ss : List Slice} {i : Nat} {s x : Slice}
    (h : ss.Pairwise fun s t => s.head ≤ t.head) (hi : ss[i]? = some s) (hx : x.head = s.head)
    : (ss.insertIdx (i + 1) x).Pairwise fun s t => s.head ≤ t.head := by
  induction ss generalizing i with
  | nil => contradiction
  | cons a ss ih =>
    rw [List.pairwise_cons] at h
    rw [List.insertIdx_succ_cons, List.pairwise_cons]
    cases i with
    | zero =>
      rw [List.getElem?_cons_zero, Option.some.injEq] at hi
      rw [List.insertIdx_zero, List.forall_mem_cons, List.pairwise_cons, hx, hi]
      rw [hi] at h
      exact ⟨⟨Nat.le_refl _, h.1⟩, h.1, h.2⟩
    | succ i =>
      rw [List.getElem?_cons_succ] at hi
      refine ⟨?_, ih h.2 hi⟩
      intro t ht
      rcases List.eq_or_mem_of_mem_insertIdx ht with rfl | ht
      . rw [hx]
        exact h.1 s (List.mem_of_getElem? hi)
      . exact h.1 t ht

theorem Walked.refl (hr : Valid env r) : Walked env state q r r #[] := by
  refine ⟨hr, rfl, ?_, List.Pairwise.nil, ?_⟩
  . exact Frame.refl hr (Stands.of_size_le hr (Nat.le_refl _))
  . intro s hs
    exact absurd hs (Array.not_mem_empty s)

theorem ensures_addSlice {origin : Nat} (h : Walked env state q r₀ r slices)
    (hw : WalkerOk env r.nodes state q w)
    : Ensures env r (addSlice origin w slices) fun slices' r' => Walked env state q r₀ r' slices' := by
  unfold addSlice
  simp only [ensures_bind, ensures_get]
  split
  . next s i hsame =>
    have hmem := Array.mem_of_back? hsame
    rw [Array.mem_filter, Array.mem_zipIdx_iff_getElem?, beq_iff_eq] at hmem
    rcases hmem with ⟨hi, hnode⟩
    have hs := h.slice s (Array.mem_of_getElem? hi)
    rw [ensures_pure]
    refine ⟨h.valid, h.nodes_eq, h.frame, ?_, ?_⟩
    . rw [← Array.getElem?_toList] at hi
      exact pairwise_insertIdx (s := s) h.sorted hi rfl
    . intro t ht
      rcases List.eq_or_mem_of_mem_insertIdx (List.mem_toArray.mp ht) with rfl | ht
      . refine ⟨hs.1, hs.2.1, ?_⟩
        have hhead : (r.head s.head).node = w.node := hnode
        dsimp only
        rw [hhead]
        exact hw.leads
      . exact h.slice t (Array.mem_toList_iff.mp ht)
  . simp only [ensures_bind, ensures_modify, ensures_pure]
    generalize hnew : (Head.mk w.node _ _ _ _ _) = new
    have hnode : new.node = w.node ∧ new.lookahead = none := by
      rw [← hnew]
      exact ⟨rfl, rfl⟩
    have hhead (i : Nat) : Run.head { r with heads := r.heads.push new } i
        = if i = r.heads.size then new else r.head i :=
      getD_push r.heads
    have hsize : (r.heads.push new).size = r.heads.size + 1 := Array.size_push new
    have hvalid : Valid env { r with heads := r.heads.push new } := by
      apply h.valid.withHeads
      intro x hx
      rcases Array.mem_push.mp hx with hx | rfl
      . exact h.valid.heads x hx
      . constructor
        . rw [hnode.1]
          exact hw.lt_size
        . intro _
          exact hnode.2
        . rw [hnode.2]
          intro t ht
          contradiction
    have hframe : Frame r.heads.size r.heads.size q r { r with heads := r.heads.push new } := by
      refine ⟨Grows.refl r.nodes, ?_, ?_, ?_⟩
      . dsimp only
        omega
      . intro i hi _
        apply SameFoot.of_eq
        rw [hhead, if_neg (Nat.ne_of_lt hi)]
      . intro i hi
        by_cases heq : i = r.heads.size
        . constructor
          . rw [hhead, if_pos heq]
            exact hnode.2
          . rw [hhead, if_pos heq, hnode.1]
            exact hw.leads.le
        . apply Stands.of_size_le hvalid
          dsimp only
          omega
    constructor
    . exact hvalid
    . exact h.nodes_eq
    . exact h.frame.beside hframe h.valid
    . rw [Array.toList_push, List.pairwise_append]
      refine ⟨h.sorted, List.pairwise_singleton _ _, ?_⟩
      intro s hs t ht
      rw [List.mem_singleton.mp ht]
      exact Nat.le_of_lt (h.slice s (Array.mem_toList_iff.mp hs)).2.1
    . intro s hs
      rcases Array.mem_push.mp hs with hs | rfl
      . have := h.slice s hs
        refine ⟨this.1, ?_, ?_⟩
        . dsimp only
          omega
        . rw [hhead, if_neg (by omega)]
          exact this.2.2
      . refine ⟨h.frame.le_size, ?_, ?_⟩
        . dsimp only
          omega
        . rw [hhead, if_pos rfl, hnode.1]
          exact hw.leads

section

variable {σ : Type} {visit : σ → Walker → StackNode → σ × Visit} {origin : Nat}

theorem ensures_walkStep (ws : List Walker) (kept added : Array Walker) (s : σ)
    (h : Walked env state q r₀ r slices) (hws : ∀ w ∈ ws, WalkerOk env r₀.nodes state q w)
    (hkept : ∀ w ∈ kept, WalkerOk env r₀.nodes state q w)
    (hadded : ∀ w ∈ added, WalkerOk env r₀.nodes state q w)
    : Ensures env r (walkStep visit origin ws kept added s slices) fun res r' =>
        Walked env state q r₀ r' res.2.2 ∧ ∀ w ∈ res.1, WalkerOk env r₀.nodes state q w := by
  induction ws generalizing r slices kept added s with
  | nil =>
    rw [walkStep, ensures_pure]
    refine ⟨h, ?_⟩
    intro w hw
    rw [Array.mem_toList_iff, Array.mem_append] at hw
    rcases hw with hw | hw
    . exact hkept w hw
    . exact hadded w hw
  | cons w rest ih =>
    rw [List.forall_mem_cons] at hws
    rcases hws with ⟨hw, hrest⟩
    have hfollow (l : Link) (hl : l ∈ (r.node w.node).links)
        : WalkerOk env r₀.nodes state q (w.follow l) := by
      apply hw.follow
      rw [← h.nodes_eq]
      exact (h.valid.nodeOk w.node).links l hl
    have hmore : ∀ w' ∈ ((r.node w.node).links.toList.drop 1).foldl (fun (added : Array Walker) l =>
        if kept.size + 1 + rest.length + added.size ≥ maxWalkers then added
        else added.push (w.follow l)) added, WalkerOk env r₀.nodes state q w' := by
      apply List.foldlRecOn (motive := fun ws => ∀ w' ∈ ws, WalkerOk env r₀.nodes state q w') _ _ hadded
      intro added hadded l hl w' hw'
      split at hw'
      . exact hadded w' hw'
      . rcases Array.mem_push.mp hw' with hw' | rfl
        . exact hadded w' hw'
        . exact hfollow l (Array.mem_toList_iff.mp (List.mem_of_mem_drop hl))
    unfold walkStep
    simp only [ensures_bind, ensures_node]
    generalize visit s w (r.node w.node) = what
    generalize List.foldl _ added _ = more at hmore
    have hlast (slices' : Array Slice) (r' : Run) (h' : Walked env state q r₀ r' slices')
        : Ensures env r' (walkStep visit origin rest kept added what.1 slices') fun res r' =>
            Walked env state q r₀ r' res.2.2 ∧ ∀ w ∈ res.1, WalkerOk env r₀.nodes state q w :=
      ih kept added what.1 h' hrest hkept hadded
    have hnext (first : Link) (hfirst : (r.node w.node).links[0]? = some first) (slices' : Array Slice)
        (r' : Run) (h' : Walked env state q r₀ r' slices')
        : Ensures env r' (walkStep visit origin rest (kept.push (w.follow first)) more what.1 slices')
            fun res r' =>
              Walked env state q r₀ r' res.2.2 ∧ ∀ w ∈ res.1, WalkerOk env r₀.nodes state q w := by
      apply ih _ more what.1 h' hrest _ hmore
      intro w' hw'
      rcases Array.mem_push.mp hw' with hw' | rfl
      . exact hkept w' hw'
      . exact hfollow first (Array.mem_of_getElem? hfirst)
    -- The slice is added before the walker goes on, or there is none.
    split
    . rw [ensures_bind]
      rw [← h.nodes_eq] at hw
      apply (ensures_addSlice h hw).imp
      intro slices' r' h'
      split
      . exact hlast slices' r' h'
      . next first hfirst =>
        split
        . exact hlast slices' r' h'
        . exact hnext first hfirst slices' r' h'
    . split
      . exact hlast slices r h
      . next first hfirst =>
        split
        . exact hlast slices r h
        . exact hnext first hfirst slices r h

theorem ensures_walk (s : σ) (hr : Valid env r)
    : Ensures env r (walk visit origin s) fun res r' =>
        Walked env (r.stateOf origin) (byteAt r.nodes (r.head origin).node) r r' res.2 := by
  generalize hq : byteAt r.nodes (r.head origin).node = q
  generalize hstate : r.stateOf origin = state
  have hgo (fuel : Nat) (ws : List Walker) (s : σ) (slices : Array Slice) (r' : Run)
      (h : Walked env state q r r' slices) (hws : ∀ w ∈ ws, WalkerOk env r.nodes state q w)
      : Ensures env r' (walk.go visit origin fuel ws s slices) fun res r' =>
          Walked env state q r r' res.2 := by
    induction fuel generalizing ws s slices r' with
    | zero =>
      unfold walk.go
      exact h
    | succ fuel ih =>
      cases ws with
      | nil =>
        unfold walk.go
        exact h
      | cons w ws =>
        unfold walk.go
        rw [ensures_bind]
        apply (ensures_walkStep (w :: ws) #[] #[] s h hws _ _).imp
        . rintro ⟨ws', s', slices'⟩ r'' ⟨h', hws'⟩
          exact ih ws' s' slices' r'' h' hws'
        . intro w hw
          exact absurd hw (Array.not_mem_empty w)
        . intro w hw
          exact absurd hw (Array.not_mem_empty w)
  unfold walk
  simp only [ensures_bind, ensures_get, ensures_head]
  apply hgo _ _ s #[] r (Walked.refl hr)
  intro w hw
  rw [List.mem_singleton.mp hw]
  refine ⟨(hr.headOk origin).lt_size, Leads.nil (Nat.le_of_eq hq) ?_⟩
  intro hne
  rw [← hstate] at hne
  exact hne

/-! What is walked for. -/

theorem ensures_popCount {n : Nat} (hr : Valid env r)
    : Ensures env r (popCount v n) fun slices r' =>
        Walked env (r.stateOf v) (byteAt r.nodes (r.head v).node) r r' slices := by
  unfold popCount
  rw [ensures_bind]
  exact ensures_walk () hr

theorem ensures_popAll (hr : Valid env r)
    : Ensures env r (popAll v) fun slices r' =>
        Walked env (r.stateOf v) (byteAt r.nodes (r.head v).node) r r' slices := by
  unfold popAll
  rw [ensures_bind]
  exact ensures_walk () hr

/--
The error on top of a head is taken off, if there is one: the head goes back to where the error begins, but
not to the state for errors.
-/
theorem ensures_popError (hr : Valid env r) (hv : v < r.heads.size) (hlook : (r.head v).lookahead = none)
    : Ensures env r (popError v) fun ts r' =>
        Valid env r' ∧
        Frame r.heads.size v (byteAt r.nodes (r.head v).node) r r' ∧
        Row env.automaton env.text (byteAt r'.nodes (r'.head v).node) ts
          (byteAt r.nodes (r.head v).node) ∧
        (r.stateOf v ≠ errorState → r'.stateOf v ≠ errorState) := by
  generalize hq : byteAt r.nodes (r.head v).node = q
  have hstands : Stands r v q := ⟨hlook, Nat.le_of_eq hq⟩
  unfold popError
  simp only [ensures_bind, ensures_read, ensures_top]
  split
  . exact ⟨hr, Frame.refl hr hstands, Nat.le_of_eq hq, id⟩
  . rw [ensures_bind]
    apply (ensures_walk false hr).imp
    rintro ⟨_, slices⟩ r₁ hwalked
    rw [hq] at hwalked
    have hr₁ := hwalked.valid
    have hstands := hstands.keep hr hwalked.frame.grows (hwalked.frame.kept v hv (Nat.ne_of_lt hv))
    have hframe := hwalked.frame.except hstands
    dsimp only
    split
    . next s hs =>
      rcases hwalked.slice s (Array.mem_of_getElem? hs) with ⟨hle, hlt, hleads⟩
      have hs : Stands r₁ s.head (byteAt r₁.nodes (r₁.head s.head).node) :=
        ⟨(hwalked.frame.fresh s.head (.inl hle)).lookahead, Nat.le_refl _⟩
      rw [ensures_bind]
      apply Ensures.imp
      . apply (ensures_renumber_frame hr₁ hframe (.inl rfl) hle).and
        exact ensures_renumber_stands hr₁ (Nat.le_of_lt (Nat.lt_of_lt_of_le hv hle)) hs hlt
      . rintro _ r₂ ⟨⟨hr₂, hframe₂⟩, _, hstands₂, hstate₂, _⟩
        refine ⟨hr₂, hframe₂, hleads.row.of_le hstands₂.byte_le, ?_⟩
        intro hne
        exact hstate₂ (hleads.clean hne).1
    . refine ⟨hr₁, hframe, (hframe.fresh v (.inr rfl)).byte_le, ?_⟩
      intro hne heq
      exact hne ((hwalked.frame.stateOf_eq hr hv (Nat.ne_of_lt hv)).symm.trans heq)

theorem ensures_recordPassed (hr : Valid env r) (hv : Stands r v p)
    : Ensures env r (recordPassed v) fun _ r' => Onward env r r' ∧ Stands r' v p := by
  unfold recordPassed
  rw [ensures_bind]
  apply (ensures_walk #[] hr).imp
  rintro ⟨passed, _⟩ r₁ hwalked
  have hok := hwalked.valid.headOk v
  have hstands := (hwalked.frame.of_le hv.byte_le).stands hr hv
  apply Ensures.imp
  . apply ensures_setHead_still hwalked.valid
    . exact ⟨hok.lt_size, hok.active, hok.lookahead⟩
    . exact ⟨rfl, rfl⟩
  . intro _ r₂ hstill
    have honward := (hwalked.frame.onward hwalked.valid).trans hstill.onward
    exact ⟨honward, hstill.moved.stands hwalked.valid hstands⟩

end

end Stack

end CallFlow.Parser
