import CallFlow.Parser.Engine
import CallFlow.Proofs.Parser.Walk

/-!
This module contains that reducing keeps the stack valid (`ensures_reduce`), also when everything that a head
allows is reduced in turn (`ensures_reduceAll`): what is taken off the stack goes into a parent that takes its
place.
-/

namespace CallFlow.Parser

open CallFlow.Text CallFlow.Automaton

namespace Engine

variable {env : Env} {r r' r₀ : Run} {v w k x p q state : Nat}

/-! Comparing. -/

theorem ensures_standing (hr : Valid env r) : Ensures env r (standing v) fun _ r' => Still env r r' := by
  unfold standing
  simp only [ensures_bind, Stack.ensures_isPaused]
  apply Stack.ensures_errorCost
  intro cost
  apply (Stack.ensures_nodesSinceError hr).imp
  intro _ r' hstill
  exact hstill

theorem ensures_isBeaten {cost : Nat} (hr : Valid env r)
    : Ensures env r (isBeaten v cost) fun _ r' => Still env r r' := by
  unfold isBeaten
  simp only [ensures_bind, Stack.ensures_place]
  apply (Stack.ensures_nodesSinceError hr).imp
  intro nodeCount r₁ hstill
  simp only [Stack.ensures_top, Stack.ensures_count]
  apply Ensures.forIn (fun _ s r' => s.1 = none ∧ Still env r r')
  . exact ⟨rfl, hstill⟩
  . rintro i _ s r' ⟨_, hstill⟩
    simp only [ensures_bind, Stack.ensures_isActive, Stack.ensures_place]
    split
    . rw [ensures_bind]
      apply (ensures_standing hstill.valid).imp
      intro other r'' hstill'
      have hstill := hstill.trans hstill'
      split
      . exact hstill
      . rw [ensures_bind]
        apply Stack.ensures_canMerge
        intro can
        split
        . exact hstill
        . exact ⟨rfl, hstill⟩
      . exact ⟨rfl, hstill⟩
    . exact ⟨rfl, hstill⟩
  . rintro s r' ⟨hs, hstill⟩
    rw [hs]
    exact hstill

theorem ensures_isHopeless {cost : Nat} (hr : Valid env r)
    : Ensures env r (isHopeless v cost) fun _ r' => Still env r r' := by
  unfold isHopeless
  simp only [ensures_bind, ensures_get]
  split
  . split
    . exact Still.refl hr
    . exact ensures_isBeaten hr
  . exact ensures_isBeaten hr

/-! Groups of slices. -/

theorem groupSlices_cons (s : Stack.Slice) (ss : List Stack.Slice)
    : groupSlices (s :: ss).toArray = match groupSlices ss.toArray with
      | (h, ways) :: rest =>
        if h == s.head then (h, s.trees :: ways) :: rest else (s.head, [s.trees]) :: (h, ways) :: rest
      | [] => [(s.head, [s.trees])] := by
  unfold groupSlices
  dsimp only
  rw [List.foldr_cons]
  generalize List.foldr _ [] ss = groups
  cases groups with
  | nil => rfl
  | cons g rest => rfl

/--
A group is not empty, and its ways are those of slices of its head.
-/
theorem mem_groupSlices {ss : List Stack.Slice} {g : Nat × List (List Subtree)}
    (hg : g ∈ groupSlices ss.toArray) : g.2 ≠ [] ∧ ∀ ts ∈ g.2, ⟨ts, g.1⟩ ∈ ss := by
  induction ss generalizing g with
  | nil => contradiction
  | cons s ss ih =>
    rw [groupSlices_cons] at hg
    have hsingle : [s.trees] ≠ [] ∧ ∀ ts ∈ [s.trees], (⟨ts, s.head⟩ : Stack.Slice) ∈ s :: ss := by
      refine ⟨List.cons_ne_nil _ _, ?_⟩
      intro ts hts
      rw [List.mem_singleton.mp hts]
      exact List.mem_cons_self
    have hmore (g : Nat × List (List Subtree)) (hg : g ∈ groupSlices ss.toArray)
        : g.2 ≠ [] ∧ ∀ ts ∈ g.2, ⟨ts, g.1⟩ ∈ s :: ss :=
      ⟨(ih hg).1, fun ts hts => List.mem_cons_of_mem s ((ih hg).2 ts hts)⟩
    split at hg
    . next h ways rest hgroups =>
      rw [hgroups] at hmore
      split at hg
      . next hhead =>
        rw [beq_iff_eq] at hhead
        rcases List.mem_cons.mp hg with rfl | hg
        . refine ⟨List.cons_ne_nil _ _, ?_⟩
          intro ts hts
          rcases List.mem_cons.mp hts with rfl | hts
          . dsimp only
            rw [hhead]
            exact List.mem_cons_self
          . exact (hmore _ List.mem_cons_self).2 ts hts
        . exact hmore g (List.mem_cons_of_mem _ hg)
      . rcases List.mem_cons.mp hg with rfl | hg
        . exact hsingle
        . exact hmore g hg
    . rw [List.mem_singleton.mp hg]
      exact hsingle

theorem exists_head_eq {ss : List Stack.Slice} {g : Nat × List (List Subtree)}
    (hg : g ∈ groupSlices ss.toArray) : ∃ s ∈ ss, s.head = g.1 := by
  rcases mem_groupSlices hg with ⟨hne, hways⟩
  rcases List.exists_mem_of_ne_nil g.2 hne with ⟨ts, hts⟩
  exact ⟨_, hways ts hts, rfl⟩

/--
Slices in the order of their heads fall into groups with different heads, in the same order.
-/
theorem pairwise_groupSlices {ss : List Stack.Slice} (h : ss.Pairwise fun s t => s.head ≤ t.head)
    : (groupSlices ss.toArray).Pairwise fun g g' => g.1 < g'.1 := by
  induction ss with
  | nil => exact List.Pairwise.nil
  | cons s ss ih =>
    rw [List.pairwise_cons] at h
    have hgroups := ih h.2
    have hle (g : Nat × List (List Subtree)) (hg : g ∈ groupSlices ss.toArray) : s.head ≤ g.1 := by
      rcases exists_head_eq hg with ⟨t, ht, hhead⟩
      rw [← hhead]
      exact h.1 t ht
    rw [groupSlices_cons]
    split
    . next first ways rest hfirst =>
      rw [hfirst, List.pairwise_cons] at hgroups
      rw [hfirst] at hle
      split
      . exact List.pairwise_cons.mpr hgroups
      . next hne =>
        rw [beq_iff_eq] at hne
        have hlt := Nat.lt_of_le_of_ne (hle _ List.mem_cons_self) (Ne.symm hne)
        rw [List.pairwise_cons, List.pairwise_cons, List.forall_mem_cons]
        refine ⟨⟨hlt, ?_⟩, hgroups⟩
        intro g hg
        exact Nat.lt_trans hlt (hgroups.1 g hg)
    . exact List.pairwise_singleton _ _

/-! Reducing. -/

/--
The automaton reduces so in the state.
-/
def Allows (a : Automaton) (state : Nat) (red : Reduction) : Prop :=
  ∃ c, Action.reduce red ∈ a.actions state c

/--
The parent of the trees on a way takes their place, whatever state it leads to, and the extra trees at the end
stay behind it.
-/
theorem ensures_choose {i : Nat} {red : Reduction} {labels : Nat} {ways : List (List Subtree)}
    (hr : Valid env r) (hred : Allows env.automaton state red) (hne : ways ≠ [])
    (hways : ∀ ts ∈ ways, Leads env r.nodes i ts state q)
    : Ensures env r (choose red.symbol labels (r.node i).place ways) fun res r' =>
        r' = r ∧ ∀ next, Leads env r.nodes i (res.1 :: res.2) next q := by
  rcases hred with ⟨c, hred⟩
  have hstate := hr.automaton.ne_errorState hred Automaton.Action.noConfusion Automaton.Action.noConfusion
  have hsymbol := Nat.ne_of_lt (Nat.lt_succ_of_lt (hr.automaton.reduces state c red hred))
  have hmake (labels : Nat) (ts : List Subtree) (hts : Leads env r.nodes i ts state q) (next : Nat)
      : Leads env r.nodes i
          (Subtree.node env.automaton red.symbol labels (r.node i).place (Subtree.splitTrailing ts).1 ::
            (Subtree.splitTrailing ts).2) next q := by
    have hrow := hts.row
    have hclean := hts.clean hstate
    rw [← Subtree.splitTrailing_append ts] at hrow hclean
    rw [List.forall_mem_append] at hclean
    constructor
    . apply hrow.node fun _ => ⟨(hr.nodeOk i).isPlace, rfl⟩
      exact accounted_of_not_loose hclean.2.1
    . intro _
      exact ⟨hclean.1, List.forall_mem_cons.mpr ⟨Subtree.not_loose_node _ _ _ _ hsymbol, hclean.2.2⟩⟩
  unfold choose
  simp only [ensures_bind, ensures_read]
  split
  . contradiction
  . next first rest =>
    rw [List.forall_mem_cons] at hways
    refine ⟨rfl, ?_⟩
    apply List.foldlRecOn (motive := fun (res : Subtree × List Subtree) =>
      ∀ next, Leads env r.nodes i (res.1 :: res.2) next q)
    . exact hmake labels first hways.1
    . intro best hbest ts hts
      split
      . exact hmake labels ts (hways.2 ts hts)
      . exact hbest

theorem ensures_mergeBack (hr : Valid env r)
    : Ensures env r (mergeBack w x) fun merged r' =>
        if merged then Valid env r' ∧ Moved (skip w) r r' else r' = r := by
  unfold mergeBack
  rw [ensures_bind]
  apply Ensures.forIn (fun _ s r' => s.1 = none ∧ r' = r)
  . exact ⟨rfl, rfl⟩
  . rintro j _ s r' ⟨_, rfl⟩
    split
    . rw [ensures_bind]
      apply (Stack.ensures_merge hr).imp
      intro merged r'' h
      split
      . next hmerged =>
        rw [hmerged] at h
        exact h
      . next hmerged =>
        rw [if_neg hmerged] at h
        exact ⟨rfl, h⟩
    . exact ⟨rfl, rfl⟩
  . rintro ⟨_, _⟩ r' ⟨rfl, rfl⟩
    rfl

theorem ensures_mergeAmong (hr : Valid env r)
    : Ensures env r (mergeAmong k w) fun merged r' =>
        if merged then k ≤ w ∧ Valid env r' ∧ Moved (skip w) r r' else r' = r := by
  unfold mergeAmong
  rw [ensures_bind]
  apply Ensures.forIn (fun js s r' => s.1 = none ∧ r' = r ∧ ∀ j ∈ js, j < w)
  . refine ⟨rfl, rfl, ?_⟩
    intro j hj
    exact List.mem_range.mp hj
  . rintro j js s r' ⟨_, rfl, hjs⟩
    rw [List.forall_mem_cons] at hjs
    split
    . next hle =>
      rw [ensures_bind]
      apply (Stack.ensures_merge hr).imp
      intro merged r'' h
      split
      . next hmerged =>
        rw [hmerged] at h
        exact ⟨Nat.le_of_lt (Nat.lt_of_le_of_lt hle hjs.1), h⟩
      . next hmerged =>
        rw [if_neg hmerged] at h
        exact ⟨rfl, h, hjs.2⟩
    . exact ⟨rfl, rfl, hjs.2⟩
  . rintro ⟨_, _⟩ r' ⟨rfl, rfl, _⟩
    rfl

/--
The first one of some trees that lead on from a head takes the head to where the others begin.
-/
theorem ensures_push_cons {t : Subtree} {ts : List Subtree} (hr : Valid env r)
    (hv : (r.head v).lookahead = none) (h : Leads env r.nodes (r.head v).node (t :: ts) state q)
    : Ensures env r (Stack.push v (some t) state) fun _ r' =>
        Valid env r' ∧ Frame r.heads.size v q r r' ∧ Leads env r'.nodes (r'.head v).node ts state q := by
  have hrow := h.row
  have hclean (hs : state ≠ errorState) := And.intro (h.clean hs).1 (List.forall_mem_cons.mp (h.clean hs).2)
  have hpush : Leads env r.nodes (r.head v).node (some t).toList state t.info.stop.byte := by
    refine ⟨Row.singleton hrow.1 hrow.2.1 (Nat.le_refl _), ?_⟩
    intro hs
    exact ⟨(hclean hs).1, List.forall_mem_singleton.mpr (hclean hs).2.1⟩
  apply (Stack.ensures_push hr hv hpush).imp
  rintro _ r' ⟨hr', hframe, hstate⟩
  refine ⟨hr', hframe.of_le hrow.2.2.le, hrow.2.2.of_le (hframe.fresh v (.inr rfl)).byte_le, ?_⟩
  intro hs
  exact ⟨hstate hs, (hclean hs).2.2⟩

theorem ensures_forIn_push {ts : List Subtree} (hr : Valid env r) (hv : (r.head v).lookahead = none)
    (h : Leads env r.nodes (r.head v).node ts state q)
    : Ensures env r (forIn ts PUnit.unit fun t _ => do
        Stack.push v (some t) state
        pure (.yield PUnit.unit)) fun _ r' => Valid env r' ∧ Frame r.heads.size v q r r' := by
  apply Ensures.forIn (fun ts _ r' => Valid env r' ∧ Frame r.heads.size v q r r' ∧
    Leads env r'.nodes (r'.head v).node ts state q)
  . exact ⟨hr, Frame.refl hr ⟨hv, h.le⟩, h⟩
  . rintro t ts _ r' ⟨hr', hframe, hleads⟩
    rw [ensures_bind]
    apply (ensures_push_cons hr' (hframe.fresh v (.inr rfl)).lookahead hleads).imp
    rintro _ r'' ⟨hr'', hframe', hleads'⟩
    exact ⟨hr'', hframe.trans hframe' hr' hframe.le_size (fun _ => rfl) (Nat.le_refl q), hleads'⟩
  . rintro _ r' ⟨hr', hframe, _⟩
    exact ⟨hr', hframe⟩

/--
A group of ways of the run `r₁` that is still to be reduced: its head stands where it stood, and has moved up
by as many heads as have gone.
-/
structure Awaits (env : Env) (k state q gone : Nat) (r₁ r : Run) (g : Nat × List (List Subtree)) : Prop where
  le_head : k + gone ≤ g.1
  lt_size : g.1 - gone < r.heads.size
  foot : SameFoot (r₁.head g.1) (r.head (g.1 - gone))
  ne_nil : g.2 ≠ []
  leads : ∀ ts ∈ g.2, Leads env r₁.nodes (r₁.head g.1).node ts state q

/--
The groups `gs` are left to be reduced.
-/
structure Pending (env : Env) (k state q : Nat) (r₀ r₁ : Run) (gs : List (Nat × List (List Subtree)))
    (gone : Nat) (r : Run) : Prop where
  valid : Valid env r
  grows : Grows r₁.nodes r.nodes
  frame : Frame k k q r₀ r
  sorted : gs.Pairwise fun g g' => g.1 < g'.1
  awaits : ∀ g ∈ gs, Awaits env k state q gone r₁ r g

namespace Pending

variable {r₁ : Run} {g : Nat × List (List Subtree)} {gs : List (Nat × List (List Subtree))} {gone : Nat}

theorem of_walked {slices : Array Stack.Slice} (h : Stack.Walked env state q r r₁ slices)
    : Pending env r.heads.size state q r r₁ (groupSlices slices) 0 r₁ := by
  refine ⟨h.valid, Grows.refl _, h.frame, pairwise_groupSlices h.sorted, ?_⟩
  intro g hg
  have hslice (ts : List Subtree) (hts : ts ∈ g.2) := h.slice ⟨ts, g.1⟩ (by
    rw [← Array.mem_toList_iff]
    exact (mem_groupSlices hg).2 ts hts)
  rcases exists_head_eq hg with ⟨s, hs, hhead⟩
  have hs := h.slice s (Array.mem_toList_iff.mp hs)
  rw [hhead] at hs
  exact ⟨hs.1, hs.2.1, SameFoot.refl _, (mem_groupSlices hg).1, fun ts hts => (hslice ts hts).2.2⟩

theorem le_head (h : Pending env k state q r₀ r₁ (g :: gs) gone r) : k ≤ g.1 - gone := by
  have := (h.awaits g List.mem_cons_self).le_head
  omega

theorem tail (h : Pending env k state q r₀ r₁ (g :: gs) gone r) : Pending env k state q r₀ r₁ gs gone r :=
  ⟨h.valid, h.grows, h.frame, (List.pairwise_cons.mp h.sorted).2,
    fun g' hg' => h.awaits g' (List.mem_cons_of_mem g hg')⟩

/--
A group is reduced: only its head is put elsewhere.
-/
theorem next (h : Pending env k state q r₀ r₁ (g :: gs) gone r) (hr' : Valid env r')
    (hframe : Frame r.heads.size (g.1 - gone) q r r') : Pending env k state q r₀ r₁ gs gone r' := by
  have hsorted := List.pairwise_cons.mp h.sorted
  have hg := h.awaits g List.mem_cons_self
  refine ⟨hr', h.grows.trans hframe.grows, ?_, hsorted.2, ?_⟩
  . apply h.frame.trans hframe h.valid h.frame.le_size _ (Nat.le_refl q)
    intro hlt
    exact absurd h.le_head (Nat.not_le_of_lt hlt)
  . intro g' hg'
    have hlt := hsorted.1 g' hg'
    have hg' := h.awaits g' (List.mem_cons_of_mem g hg')
    have hne : g'.1 - gone ≠ g.1 - gone := by
      have := hg.le_head
      omega
    exact ⟨hg'.le_head, Nat.lt_of_lt_of_le hg'.lt_size hframe.le_size,
      hg'.foot.trans (hframe.kept _ hg'.lt_size hne), hg'.ne_nil, hg'.leads⟩

/--
A head before those of the groups that are left goes.
-/
theorem remove (h : Pending env k state q r₀ r₁ gs gone r) (hr' : Valid env r') (hmoved : Moved (skip w) r r')
    (hk : k ≤ w) (hw : ∀ g ∈ gs, w < g.1 - gone) : Pending env k state q r₀ r₁ gs (gone + 1) r' := by
  refine ⟨hr', h.grows.trans hmoved.grows, h.frame.skip hmoved h.valid hk, h.sorted, ?_⟩
  intro g hg
  have hlt := hw g hg
  have hg := h.awaits g hg
  have hskip : skip w (g.1 - (gone + 1)) = g.1 - gone := by
    unfold skip
    split
    . omega
    . omega
  constructor
  . omega
  . apply hmoved.lt_size
    rw [hskip]
    exact hg.lt_size
  . have hfoot := hmoved.foot (g.1 - (gone + 1))
    rw [hskip] at hfoot
    exact hg.foot.trans hfoot
  . exact hg.ne_nil
  . exact hg.leads

end Pending

/--
Reducing makes new heads, which stand where `v` stood or before that, and leaves all others where they are.
-/
theorem ensures_reduce {red : Reduction} (hr : Valid env r) (hred : Allows env.automaton (r.stateOf v) red)
    (hp : byteAt r.nodes (r.head v).node ≤ p)
    : Ensures env r (reduce v red) fun res r' =>
        Valid env r' ∧ Frame r.heads.size r.heads.size p r r' ∧ ∀ w ∈ res, w = r.heads.size := by
  unfold reduce
  simp only [ensures_bind, ensures_read, Stack.ensures_count, ensures_get]
  apply (Stack.ensures_popCount hr).imp
  intro slices r₁ hwalked
  generalize byteAt r.nodes (r.head v).node = q at hp hwalked
  generalize r.stateOf v = state at hred hwalked
  apply Ensures.forIn (fun gs gone r' => Pending env r.heads.size state q r r₁ gs gone r')
  . exact Pending.of_walked hwalked
  . rintro ⟨h, ways⟩ gs gone r' hpending
    have hlt (g : Nat × List (List Subtree)) (hg : g ∈ gs) : h - gone < g.1 - gone := by
      have := (List.pairwise_cons.mp hpending.sorted).1 g hg
      have := (hpending.awaits (h, ways) List.mem_cons_self).le_head
      omega
    have hle := hpending.le_head
    have hr' := hpending.valid
    dsimp only at hle ⊢
    split
    . rw [ensures_bind]
      apply (Stack.ensures_remove hr').imp
      rintro _ r'' ⟨hr'', hmoved⟩
      exact hpending.tail.remove hr'' hmoved hle hlt
    . have hg := hpending.awaits (h, ways) List.mem_cons_self
      have hfoot := hg.foot
      have hways (ts : List Subtree) (hts : ts ∈ ways) :=
        hpending.grows.leads (hwalked.valid.headOk h).lt_size (hg.leads ts hts)
      dsimp only at hfoot
      rw [← hfoot.node] at hways
      rw [ensures_bind, Stack.ensures_place, ensures_bind]
      apply (ensures_choose hr' hred hg.ne_nil hways).imp
      rintro ⟨parent, trailing⟩ r'' ⟨rfl, hleads⟩
      rw [ensures_bind, Stack.ensures_state, ensures_bind]
      have hlook := (hpending.frame.fresh _ (.inl hle)).lookahead
      apply (ensures_push_cons hr' hlook ((hleads _).addDynamic red.dynamic)).imp
      rintro _ r₂ ⟨hr₂, hframe, hleads⟩
      rw [ensures_bind]
      apply (ensures_forIn_push hr₂ (hframe.fresh (h - gone) (.inr rfl)).lookahead hleads).imp
      rintro _ r₃ ⟨hr₃, hframe'⟩
      have hframe := hframe.trans hframe' hr₂ hframe.le_size (fun _ => rfl) (Nat.le_refl q)
      have hnext := hpending.next hr₃ hframe
      rw [ensures_bind]
      apply (ensures_mergeBack hr₃).imp
      intro merged r₄ hmerge
      split
      . next hmerged =>
        rw [if_pos hmerged] at hmerge
        exact hnext.remove hmerge.1 hmerge.2 hle hlt
      . next hmerged =>
        rw [if_neg hmerged] at hmerge
        rw [hmerge]
        exact hnext
  . intro gone r' hpending
    rw [ensures_pure]
    refine ⟨hpending.valid, hpending.frame.of_le hp, ?_⟩
    intro w hw
    split at hw
    . exact (Option.some.inj hw).symm
    . contradiction

theorem ensures_possible {tokens : List SymCode} {Q : Array Reduction × Bool → Run → Prop}
    (h : ∀ res, (∀ red ∈ res.1.toList, Allows env.automaton state red) → Q res r)
    : Ensures env r (possible state tokens) Q := by
  apply h
  apply List.foldlRecOn (motive := fun res : Array Reduction × Bool =>
    ∀ red ∈ res.1.toList, Allows env.automaton state red)
  . intro red hred
    contradiction
  . intro res hres c _
    rw [← Array.foldl_toList]
    apply List.foldlRecOn (motive := fun res : Array Reduction × Bool =>
      ∀ red ∈ res.1.toList, Allows env.automaton state red) _ _ hres
    rintro ⟨reds, shifts⟩ hreds x hx
    cases x with
    | shift next isRepetition => exact hreds
    | shiftExtra => exact hreds
    | accept => exact hreds
    | recover => exact hreds
    | reduce red =>
      dsimp only
      split
      . intro red' hred'
        rw [Array.toList_push, List.mem_append, List.mem_singleton] at hred'
        rcases hred' with hred' | rfl
        . exact hreds red' hred'
        . exact ⟨c, Array.mem_toList_iff.mp hx⟩
      . exact hreds

/--
Reducing a head in several ways, one after the other.
-/
theorem ensures_forIn_reduce {reds : List Reduction} (hr : Valid env r) (hframe : Frame k x p r₀ r)
    (hv : v = x ∨ k ≤ v) (hlt : v < r.heads.size)
    (hreds : ∀ red ∈ reds, Allows env.automaton (r.stateOf v) red)
    : Ensures env r (forIn reds none fun red _ => do
        let last ← reduce v red
        pure (.yield last)) fun last r' => Valid env r' ∧ Frame k x p r₀ r' ∧ ∀ w ∈ last, k ≤ w := by
  apply Ensures.forIn (fun reds last r' => Valid env r' ∧ Frame k x p r₀ r' ∧ (∀ w ∈ last, k ≤ w) ∧
    v < r'.heads.size ∧ ∀ red ∈ reds, Allows env.automaton (r'.stateOf v) red)
  . refine ⟨hr, hframe, ?_, hlt, hreds⟩
    intro w hw
    contradiction
  . rintro red reds _ r' ⟨hr', hframe, _, hlt, hreds⟩
    rw [List.forall_mem_cons] at hreds
    rw [ensures_bind]
    apply (ensures_reduce hr' hreds.1 (hframe.fresh v hv.symm).byte_le).imp
    rintro last r'' ⟨hr'', hframe', hlast⟩
    have hstate := hframe'.stateOf_eq hr' hlt (Nat.ne_of_lt hlt)
    refine ⟨hr'', hframe.beside hframe' hr', ?_, Nat.lt_of_lt_of_le hlt hframe'.le_size, ?_⟩
    . intro w hw
      rw [hlast w hw]
      exact hframe.le_size
    . rw [← hstate] at hreds
      exact hreds.2
  . rintro last r' ⟨hr', hframe, hlast, _⟩
    exact ⟨hr', hframe, hlast⟩

theorem ensures_reduceAll_go {first start : Nat} {token : Option SymCode} {tokens : List SymCode}
    (hfirst : k ≤ first) (hstart : start = x ∨ k ≤ start) (htoken : token.isSome → k ≤ start)
    (fuel i v : Nat) (can : Bool) (hr : Valid env r) (hframe : Frame k x p r₀ r)
    (hv : v = start ∨ k ≤ v)
    : Ensures env r (reduceAll.go start token first tokens fuel i v can) fun _ r' =>
        Valid env r' ∧ Frame k x p r₀ r' := by
  induction fuel generalizing i v can r with
  | zero =>
    unfold reduceAll.go
    exact ⟨hr, hframe⟩
  | succ fuel ih =>
    unfold reduceAll.go
    simp only [ensures_bind, Stack.ensures_count]
    split
    . exact ⟨hr, hframe⟩
    . next hlt =>
      rw [ensures_bind]
      apply (ensures_mergeAmong hr).imp
      intro merged r₁ hmerge
      split
      . next hmerged =>
        rw [if_pos hmerged] at hmerge
        exact ih _ _ _ hmerge.2.1 (hframe.skip hmerge.2.2 hr (Nat.le_trans hfirst hmerge.1)) hv
      . next hmerged =>
        rw [if_neg hmerged] at hmerge
        rw [hmerge]
        simp only [ensures_bind, Stack.ensures_state]
        apply ensures_possible
        rintro ⟨reductions, shifts⟩ hreds
        have hv' : v = x ∨ k ≤ v := by omega
        have hnext : (if v == start then r.heads.size else v + 1) = start ∨
            k ≤ (if v == start then r.heads.size else v + 1) := by
          have := hframe.le_size
          split
          . omega
          . next hne =>
            rw [beq_iff_eq] at hne
            omega
        generalize (if v == start then r.heads.size else v + 1) = next at hnext
        have hdrop (r' : Run) (hr' : Valid env r') (hframe' : Frame k x p r₀ r')
            : Ensures env r' (if token.isSome then do
                Stack.remove v
                reduceAll.go start token first tokens fuel (i + 1) next can
              else reduceAll.go start token first tokens fuel (i + 1) next can) fun _ r' =>
                Valid env r' ∧ Frame k x p r₀ r' := by
          split
          . next hsome =>
            have hle : k ≤ v := by
              have := htoken hsome
              omega
            rw [ensures_bind]
            apply (Stack.ensures_remove hr').imp
            rintro _ r'' ⟨hr'', hmoved⟩
            exact ih _ _ _ hr'' (hframe'.skip hmoved hr' hle) hnext
          . exact ih _ _ _ hr' hframe' hnext
        dsimp only
        rw [← Array.forIn_toList]
        apply (ensures_forIn_reduce hr hframe hv' (Nat.lt_of_not_le hlt) hreds).imp
        rintro last r₂ ⟨hr₂, hframe₂, hlast⟩
        split
        . exact ih _ _ _ hr₂ hframe₂ hnext
        . split
          . next w =>
            split
            . rw [ensures_bind]
              apply (Stack.ensures_renumber_frame hr₂ hframe₂ hv' (hlast w rfl)).imp
              rintro _ r₃ ⟨hr₃, hframe₃⟩
              exact ih _ _ _ hr₃ hframe₃ hv
            . exact hdrop r₂ hr₂ hframe₂
          . exact hdrop r₂ hr₂ hframe₂

/--
All heads that come of reducing `start` stand at the byte `p` or before it, and so does `start` itself.
-/
theorem ensures_reduceAll {start : Nat} {token : Option SymCode} (hr : Valid env r)
    (hframe : Frame k x p r₀ r) (hstart : start = x ∨ k ≤ start) (htoken : token.isSome → k ≤ start)
    : Ensures env r (reduceAll start token) fun _ r' => Valid env r' ∧ Frame k x p r₀ r' := by
  unfold reduceAll
  simp only [ensures_bind, ensures_read, Stack.ensures_count]
  exact ensures_reduceAll_go hframe.le_size hstart htoken _ _ _ _ hr hframe (.inl rfl)

end Engine

end CallFlow.Parser
