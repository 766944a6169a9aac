import CallFlow.Proofs.Functions.Steps
import CallFlow.Proofs.Syntax.Path

/-!
This module contains the steps of a tree in terms of its paths: each node has at most one step of its
own (`step?`), its children are read within a scope (`childScope`), and so the steps of a tree are those
of its nodes in pre-order (`steps_eq_filterMap_paths`).
-/

namespace CallFlow.Functions

open CallFlow.Syntax

/--
The step of a node itself.
-/
def step? (scope : Option String) (n : Node) : Option Step :=
  match definedName? n with
  | some name => some (.define (.ofDefinition name n))
  | none => if n.kind = "call" then callStep? scope n else none

/--
The index of the child that is the body of a node.
-/
def bodyIndex? (n : Node) : Option Nat :=
  n.children.findIdx? (·.field == some "body")

/--
The function that the child with a given index of a node belongs to.
-/
def childScope (scope : Option String) (n : Node) (i : Nat) : Option String :=
  match definedName? n with
  | some name => if bodyIndex? n = some i then some name else scope
  | none => scope

/--
The function that the node at a path belongs to.
-/
def scopeAt (scope : Option String) (n : Node) : Path → Option String
  | [] => scope
  | i :: p =>
    match n.children[i]? with
    | none => none
    | some c => scopeAt (childScope scope n i) c p

/--
The step of the node at a path.
-/
def stepAt? (scope : Option String) (n : Node) (p : Path) : Option Step :=
  (n.at? p).bind (step? (scopeAt scope n p))

theorem stepsAll_eq_flatMap (scope : Option String) (ns : List Node)
    : stepsAll scope ns = ns.flatMap (steps scope) := by
  induction ns with
  | nil => rfl
  | cons n ns ih => rw [stepsAll, ih, List.flatMap_cons]

theorem flatMap_zipIdx_eq_flatMap {α β : Type} (l : List α) (i : Nat) (f : α → List β)
    : ((l.zipIdx i).flatMap fun c => f c.1) = l.flatMap f := by
  induction l generalizing i with
  | nil => rfl
  | cons a l ih => rw [List.zipIdx_cons, List.flatMap_cons, List.flatMap_cons, ih]

theorem stepsOfDefinition_eq_flatMap (name : String) (scope : Option String) (ns : List Node) (i : Nat)
    : stepsOfDefinition name scope ns
        =
      (ns.zipIdx i).flatMap fun c =>
        steps (if (ns.findIdx? (·.field == some "body")).map (i + ·) = some c.2 then some name else scope) c.1
      := by
  induction ns generalizing i with
  | nil => rfl
  | cons n ns ih =>
    rw [stepsOfDefinition, List.zipIdx_cons, List.flatMap_cons, List.findIdx?_cons]
    split
    . next h =>
      -- This is the body, so none of the later children is.
      simp only [h, BEq.rfl, ↓reduceIte, Option.map_some, Nat.add_zero]
      congr 1
      rw [stepsAll_eq_flatMap, ← flatMap_zipIdx_eq_flatMap ns (i + 1)]
      apply List.flatMap_congr
      intro c hc
      have := List.le_snd_of_mem_zipIdx hc
      rw [if_neg]
      simp only [Option.some.injEq]
      omega
    . next h =>
      have : (n.field == some "body") = false := by simpa using h
      simp only [this, Bool.false_eq_true, ↓reduceIte, Option.map_map]
      have hmap : (i + ·) ∘ (· + 1) = (i + 1 + ·) := by
        funext j
        dsimp
        omega
      rw [hmap, ih (i + 1), if_neg]
      cases ns.findIdx? (·.field == some "body") with
      | none => simp
      | some j =>
        simp only [Option.map_some, Option.some.injEq]
        omega

theorem steps_eq (scope : Option String) (n : Node)
    : steps scope n
        =
      match definedName? n with
      | some name => .define (.ofDefinition name n) :: stepsOfDefinition name scope n.children
      | none =>
        if n.kind = "call" then (callStep? scope n).toList ++ stepsAll scope n.children
        else stepsAll scope n.children
      := by
  cases n
  unfold steps
  rfl

theorem steps_eq_append (scope : Option String) (n : Node)
    : steps scope n
        =
      (step? scope n).toList ++
        n.children.zipIdx.flatMap fun c => steps (childScope scope n c.2) c.1
      := by
  rw [steps_eq]
  unfold step? childScope bodyIndex?
  cases definedName? n with
  | some name =>
    dsimp only
    rw [stepsOfDefinition_eq_flatMap name scope n.children 0]
    simp only [Nat.zero_add, Option.map_id']
    rfl
  | none =>
    dsimp only
    rw [stepsAll_eq_flatMap, flatMap_zipIdx_eq_flatMap]
    split
    . rfl
    . rfl

theorem stepAt?_cons (scope : Option String) (n c : Node) (i : Nat) (p : Path)
    (h : n.children[i]? = some c)
    : stepAt? scope n (i :: p) = stepAt? (childScope scope n i) c p := by
  unfold stepAt?
  rw [Node.at?_cons, scopeAt, h]
  rfl

theorem steps_eq_filterMap_paths (scope : Option String) (n : Node)
    : steps scope n = n.paths.filterMap (stepAt? scope n) := by
  induction n using Node.induction_children generalizing scope with
  | h n ih =>
    have hchildren : (n.children.zipIdx.flatMap fun c => steps (childScope scope n c.2) c.1)
        = n.children.zipIdx.flatMap fun c =>
            (c.1.paths.map (c.2 :: ·)).filterMap (stepAt? scope n) := by
      apply List.flatMap_congr
      intro c hc
      rw [List.mem_zipIdx_iff_getElem?] at hc
      rw [ih c.1 (List.mem_of_getElem? hc), List.filterMap_map]
      apply List.filterMap_congr
      intro p _
      rw [Function.comp_apply, stepAt?_cons scope n c.1 c.2 p hc]
    rw [steps_eq_append, hchildren, Node.paths_eq_cons_flatMap, List.filterMap_cons,
      List.filterMap_flatMap]
    have hself : stepAt? scope n [] = step? scope n := rfl
    rw [hself]
    cases step? scope n with
    | none => rfl
    | some s => rfl

theorem scopeAt_concat (scope : Option String) (n m : Node) (p : Path) (i : Nat)
    (hp : n.at? p = some m) (hi : (n.at? (p ++ [i])).isSome)
    : scopeAt scope n (p ++ [i]) = childScope (scopeAt scope n p) m i := by
  induction p generalizing scope n with
  | nil =>
    rw [Node.at?_nil, Option.some.injEq] at hp
    subst hp
    rw [List.nil_append, Node.at?_cons] at hi
    rw [List.nil_append, scopeAt, scopeAt]
    cases hc : n.children[i]? with
    | none => simp [hc] at hi
    | some c => rfl
  | cons j p ih =>
    rw [Node.at?_cons] at hp
    rw [List.cons_append, Node.at?_cons] at hi
    rw [List.cons_append, scopeAt, scopeAt]
    cases hc : n.children[j]? with
    | none => simp [hc] at hi
    | some c =>
      rw [hc, Option.bind_some] at hp hi
      apply ih _ _ hp hi

theorem definedName?_or_scope_of_childScope {scope : Option String} {n : Node} {i : Nat}
    {name : String} (h : childScope scope n i = some name)
    : definedName? n = some name ∨ scope = some name := by
  unfold childScope at h
  split at h
  . next name' hname =>
    split at h
    . left
      rw [hname, h]
    . right
      exact h
  . right
    exact h

theorem callersDefined_callStep? (scope : Option String) (n : Node) (names : List String)
    (h : ∀ name, scope = some name → name ∈ names)
    : Step.CallersDefined names (callStep? scope n).toList := by
  unfold callStep?
  split
  . next caller _ _ => exact ⟨h caller rfl, trivial⟩
  . trivial

theorem callersDefined_steps (scope : Option String) (n : Node) (names : List String)
    (h : ∀ name, scope = some name → name ∈ names) : Step.CallersDefined names (steps scope n) := by
  -- The invariant: the function that the walk is in has been defined.
  induction n using Node.induction_children generalizing scope names with
  | h n ih =>
    have hchildren : ∀ names', (∀ i name, childScope scope n i = some name → name ∈ names') →
        Step.CallersDefined names'
          (n.children.zipIdx.flatMap fun c => steps (childScope scope n c.2) c.1) := by
      intro names' hscope
      apply Step.callersDefined_flatMap
      intro c hc
      apply ih
      . rw [List.mem_zipIdx_iff_getElem?] at hc
        apply List.mem_of_getElem? hc
      . apply hscope
    rw [steps_eq_append]
    unfold step?
    split
    . next name hname =>
      -- The definition itself makes its name known to the calls in its body.
      apply hchildren (name :: names)
      intro i name' h'
      rw [List.mem_cons]
      cases definedName?_or_scope_of_childScope h' with
      | inl heq =>
        left
        rw [hname, Option.some.injEq] at heq
        exact heq.symm
      | inr heq =>
        right
        apply h _ heq
    . next hname =>
      apply Step.callersDefined_append
      . split
        . apply callersDefined_callStep? _ _ _ h
        . trivial
      . apply hchildren
        intro i name h'
        cases definedName?_or_scope_of_childScope h' with
        | inl heq => simp [hname] at heq
        | inr heq => apply h _ heq

end CallFlow.Functions
