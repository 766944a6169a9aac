import CallFlow.Proofs.Functions.Extract

/-!
This module contains that no call of a tree is lost. Where the walk is in the body of a function, this function
is in the table that the nodes before have made (`scope_mem_names_tableBefore`), so each call finds the record
that it belongs to (`extract_drops_no_call`).
-/

namespace CallFlow.Functions

open CallFlow.Syntax

/--
The table that the walk comes to a node with: the nodes before it have taken their steps.
-/
def tableBefore (root : Node) (p : Path) : Table :=
  ((root.paths.filter (Path.Before · p)).filterMap (stepAt? none root)).foldl Step.apply .empty

theorem filter_before_of_split {root : Node} {p : Path} {ps qs : List Path}
    (h : root.paths = ps ++ p :: qs) : root.paths.filter (Path.Before · p) = ps := by
  have hpairwise := root.pairwise_before_paths
  rw [h] at hpairwise
  rcases Path.before_of_split hpairwise with ⟨hps, hqs⟩
  have hearlier : ps.filter (Path.Before · p) = ps := by
    rw [List.filter_eq_self]
    intro q hq
    rw [decide_eq_true_eq]
    exact hps q hq
  have hlater : (p :: qs).filter (Path.Before · p) = [] := by
    rw [List.filter_eq_nil_iff]
    intro q hq
    rw [decide_eq_true_eq]
    rw [List.mem_cons] at hq
    cases hq with
    | inl heq =>
      rw [heq]
      apply Path.before_irrefl
    | inr hq => apply Path.before_asymm (hqs q hq)
  rw [h, List.filter_append, hearlier, hlater, List.append_nil]

/--
From there on the walk takes the step of the node, if it has one, and then later ones.
-/
theorem exists_extract_eq_foldl {root : Node} {p : Path} (hp : p ∈ root.paths)
    : ∃ ss,
        extract root
          =
        ((stepAt? none root p).toList ++ ss).foldl Step.apply (tableBefore root p)
      := by
  rcases List.append_of_mem hp with ⟨ps, qs, h⟩
  refine ⟨qs.filterMap (stepAt? none root), ?_⟩
  unfold extract tableBefore
  rw [filter_before_of_split h, ← List.foldl_append, steps_eq_filterMap_paths, h,
    List.filterMap_append, List.filterMap_cons]
  cases stepAt? none root p with
  | none => rfl
  | some s => rfl

theorem mem_names_tableBefore_iff (root : Node) (p : Path) (name : String)
    : name ∈ (tableBefore root p).names
        ↔
      ∃ d ∈ root.paths, Path.Before d p ∧ definedAt? root d = some name
      := by
  unfold tableBefore
  rw [Step.names_foldl_apply, Table.names_empty, List.nil_append, List.mem_eraseDups,
    List.filterMap_filterMap, List.mem_filterMap]
  simp only [bind_defined?_stepAt?, List.mem_filter, decide_eq_true_eq, and_assoc]

theorem scope_mem_names_tableBefore {root : Node} {p : Path} {caller : String}
    (hp : p ∈ root.paths) (h : scopeAt none root p = some caller)
    : caller ∈ (tableBefore root p).names := by
  rw [Node.mem_paths_iff] at hp
  rw [scopeAt_eq_some_iff root p hp] at h
  rcases h with ⟨d, hd, hinner, hname⟩
  rw [mem_names_tableBefore_iff]
  exact ⟨d, hd, before_of_inBody hinner.inBody, hname⟩

theorem scopeAt_of_stepAt? {root : Node} {p : Path} {caller callee : String}
    (h : stepAt? none root p = some (.call caller callee))
    : scopeAt none root p = some caller := by
  unfold stepAt? at h
  rw [Option.bind_eq_some_iff] at h
  rcases h with ⟨n, _, h⟩
  unfold step? at h
  split at h
  . simp at h
  . split at h
    . unfold callStep? at h
      split at h
      . next hscope _ =>
        simp only [Option.some.injEq, Step.call.injEq] at h
        rw [hscope, h.1]
      . contradiction
    . contradiction

theorem pushCall_of_mem_names (t : Table) (caller callee : String) (h : caller ∈ t.names)
    : t.pushCall caller callee = .ok ((Step.call caller callee).apply t) := by
  rw [← Table.isSome_get?_iff] at h
  simp only [Step.apply, Table.pushCall, h, ↓reduceIte]

theorem dropped_not_mem_noticesFrom {t : Table} {ss : List Step}
    (h : Step.CallersDefined t.names ss) (caller callee : String) (e : NotFound)
    : .dropped caller callee e ∉ noticesFrom t ss := by
  -- The invariant: whoever still calls is in the table or gets defined before.
  induction ss generalizing t with
  | nil => apply List.not_mem_nil
  | cons s ss ih =>
    have hrest := ih (Step.callersDefined_names_apply h)
    rw [noticesFrom, List.mem_append, not_or]
    refine ⟨?_, hrest⟩
    cases s with
    | define r =>
      unfold Step.notices
      dsimp only
      split
      . simp
      . simp
    | call caller' callee' =>
      unfold Step.notices
      dsimp only
      rw [pushCall_of_mem_names t caller' callee' h.1]
      apply List.not_mem_nil

/--
What holds where the walk comes to a node.
-/
structure KeepsCalls (root : Node) (p : Path) : Prop where
  run : ∃ ss,
    extract root = ((stepAt? none root p).toList ++ ss).foldl Step.apply (tableBefore root p)
  scope : ∀ caller, scopeAt none root p = some caller → caller ∈ (tableBefore root p).names
  pushCall : ∀ caller callee, stepAt? none root p = some (.call caller callee) →
    (tableBefore root p).pushCall caller callee
      = .ok ((Step.call caller callee).apply (tableBefore root p))

/--
Wherever the walk is in a function, the function is in the table. So each call is added to a record, and there
is never a call to tell that it was dropped.
-/
theorem extract_drops_no_call (root : Node)
    : (∀ p ∈ root.paths, KeepsCalls root p) ∧
      ∀ caller callee e, .dropped caller callee e ∉ notices root := by
  constructor
  . intro p hp
    refine ⟨exists_extract_eq_foldl hp, ?_, ?_⟩
    . intro caller h
      exact scope_mem_names_tableBefore hp h
    . intro caller callee h
      apply pushCall_of_mem_names
      exact scope_mem_names_tableBefore hp (scopeAt_of_stepAt? h)
  . apply dropped_not_mem_noticesFrom
    apply callersDefined_steps
    simp

/--
A function that defines itself anew within its body, and a definition without a name there.
-/
def selfDefining : Node where
  kind := "module"
  children := [
    functionNode "f" [] [
      functionNode "f" [] [callNode "a" []],
      { kind := "function_definition"
        children := [{ kind := "block", field := some "body", children := [callNode "b" []] }] }
    ]
  ]

/--
The call of `b` belongs to `f` again, whose record is by then that of the inner definition.
-/
theorem extract_drops_no_call_selfDefining
    : let p : Path := [0, 2, 1, 0, 0]
      p ∈ selfDefining.paths ∧
        scopeAt none selfDefining p = some "f" ∧
        (tableBefore selfDefining p).records = [{ name := "f", calls := ["a"] }] ∧
        "f" ∈ (tableBefore selfDefining p).names ∧
        stepAt? none selfDefining p = some (.call "f" "b") ∧
        (tableBefore selfDefining p).pushCall "f" "b"
          = .ok ((Step.call "f" "b").apply (tableBefore selfDefining p)) := by
  intro p
  have hp : p ∈ selfDefining.paths := by decide +kernel
  have hscope : scopeAt none selfDefining p = some "f" := by decide +kernel
  have hstep : stepAt? none selfDefining p = some (.call "f" "b") := by decide +kernel
  have hkeeps := (extract_drops_no_call selfDefining).1 p hp
  refine ⟨hp, hscope, by decide +kernel, ?_, hstep, ?_⟩
  . exact hkeeps.scope "f" hscope
  . exact hkeeps.pushCall "f" "b" hstep

end CallFlow.Functions
