import Mathlib.Data.List.Forall2
import CallFlow.Proofs.Syntax.Path

/-!
This module contains what becomes of a tree when comments are put into it (`Commented`), and what that is to a
reader who skips them: the nodes that are found are the same, or what became of them. A few nodes may have no
comments among their parts: those whose parts are counted, and strings, whose text is cut at its parts.
-/

namespace CallFlow.Syntax

structure IsComment (n : Node) : Prop where
  kind : n.kind = "comment"
  no_field : n.field = none
  no_children : n.children = []

/--
The kinds of nodes that no comments are put into.
-/
def closedKinds : List String := ["string", "type", "member_type", "expression_statement"]

/--
All is the same about two nodes but their places and parts.
-/
structure SameLabel (m n : Node) : Prop where
  kind : n.kind = m.kind
  named : n.named = m.named
  field : n.field = m.field
  status : n.status = m.status
  text : n.text = m.text

/--
A part of a node and what becomes of it are as far from where the nodes around them start.
-/
structure SameOffsets (m n c d : Node) : Prop where
  start : d.start.byte - n.start.byte = c.start.byte - m.start.byte
  stop : d.stop.byte - n.start.byte = c.stop.byte - m.start.byte

/--
What becomes of some nodes with comments between them.
-/
inductive Interspersed (R : Node → Node → Prop) : List Node → List Node → Prop where
  | nil : Interspersed R [] []
  | comment {c : Node} {ms ns : List Node} (hc : IsComment c) (h : Interspersed R ms ns)
    : Interspersed R ms (c :: ns)
  | keep {m n : Node} {ms ns : List Node} (hmn : R m n) (h : Interspersed R ms ns)
    : Interspersed R (m :: ms) (n :: ns)

/--
A tree and what becomes of it with more comments. All may be moved by them, but a string without
interpolations is moved as a whole.
-/
inductive Commented : Node → Node → Prop where
  | opened {m n : Node} (hlabel : SameLabel m n) (hkind : m.kind ∉ closedKinds)
      (hparts : Interspersed Commented m.children n.children)
    : Commented m n
  | closed {m n : Node} (hlabel : SameLabel m n) (hkind : m.kind ∈ closedKinds)
      (hparts : List.Forall₂ Commented m.children n.children)
      (hoffsets : m.kind = "string" → (∀ c ∈ m.children, c.kind ≠ "interpolation") →
        List.Forall₂ (SameOffsets m n) m.children n.children)
    : Commented m n

theorem rel_head? {α : Type} {R : α → α → Prop} {xs ys : List α} (h : List.Forall₂ R xs ys)
    : Option.Rel R xs.head? ys.head? := by
  cases h with
  | nil => exact .none
  | cons h _ => exact .some h

theorem rel_getLast? {α : Type} {R : α → α → Prop} {xs ys : List α} (h : List.Forall₂ R xs ys)
    : Option.Rel R xs.getLast? ys.getLast? := by
  rw [← List.head?_reverse, ← List.head?_reverse]
  apply rel_head?
  rw [List.forall₂_reverse_iff]
  exact h

theorem map_eq_of_rel {α β : Type} {R : α → α → Prop} {f : α → β} {a b : Option α}
    (hf : ∀ x y, R x y → f y = f x) (h : Option.Rel R a b) : b.map f = a.map f := by
  cases h with
  | none => rfl
  | some h => rw [Option.map_some, Option.map_some, hf _ _ h]

theorem rel_filter {α : Type} {R : α → α → Prop} {P : α → Bool} {a b : Option α}
    (hP : ∀ x y, R x y → P y = P x) (h : Option.Rel R a b)
    : Option.Rel R (a.filter P) (b.filter P) := by
  cases h with
  | none => exact .none
  | @some x y h =>
    rw [Option.filter_some, Option.filter_some, hP x y h]
    cases P x with
    | true => exact .some h
    | false => exact .none

theorem mapM_eq_of_forall₂ {α β : Type} {R : α → α → Prop} {f : α → Option β} {xs ys : List α}
    (hf : ∀ x ∈ xs, ∀ y, R x y → f y = f x) (h : List.Forall₂ R xs ys) : ys.mapM f = xs.mapM f := by
  induction h with
  | nil => rfl
  | cons h _ ih =>
    rw [List.forall_mem_cons] at hf
    rw [List.mapM_cons, List.mapM_cons, hf.1 _ h, ih hf.2]

namespace Interspersed

variable {R S : Node → Node → Prop} {ms ns : List Node}

theorem of_forall₂ (h : List.Forall₂ R ms ns) : Interspersed R ms ns := by
  induction h with
  | nil => exact .nil
  | cons hmn _ ih => exact .keep hmn ih

theorem imp_of_mem (hRS : ∀ m ∈ ms, ∀ n, R m n → S m n) (h : Interspersed R ms ns)
    : Interspersed S ms ns := by
  induction h with
  | nil => exact .nil
  | comment hc _ ih => exact .comment hc (ih hRS)
  | keep hmn _ ih =>
    rw [List.forall_mem_cons] at hRS
    exact .keep (hRS.1 _ hmn) (ih hRS.2)

theorem filter {P : Node → Bool} (hP : ∀ m n, R m n → P n = P m) (h : Interspersed R ms ns)
    : Interspersed R (ms.filter P) (ns.filter P) := by
  induction h with
  | nil => exact .nil
  | @comment c _ _ hc _ ih =>
    rw [List.filter_cons]
    cases P c with
    | true => exact .comment hc ih
    | false => exact ih
  | @keep m n _ _ hmn _ ih =>
    rw [List.filter_cons, List.filter_cons, hP m n hmn]
    cases P m with
    | true => exact .keep hmn ih
    | false => exact ih

/--
Where no comments are selected, the nodes that are selected stand in for each other.
-/
theorem forall₂_filter {P : Node → Bool} (hcomment : ∀ c, IsComment c → P c = false)
    (hP : ∀ m n, R m n → P n = P m) (h : Interspersed R ms ns)
    : List.Forall₂ R (ms.filter P) (ns.filter P) := by
  induction h with
  | nil => exact .nil
  | @comment c _ _ hc _ ih =>
    rw [List.filter_cons, hcomment c hc]
    exact ih
  | @keep m n _ _ hmn _ ih =>
    rw [List.filter_cons, List.filter_cons, hP m n hmn]
    cases P m with
    | true => exact .cons hmn ih
    | false => exact ih

theorem rel_find? {P : Node → Bool} (hcomment : ∀ c, IsComment c → P c = false)
    (hP : ∀ m n, R m n → P n = P m) (h : Interspersed R ms ns)
    : Option.Rel R (ms.find? P) (ns.find? P) := by
  rw [← List.head?_filter, ← List.head?_filter]
  apply rel_head?
  apply h.forall₂_filter hcomment hP

theorem filterMap_eq {α : Type} {f : Node → Option α} (hcomment : ∀ c, IsComment c → f c = none)
    (hf : ∀ m n, R m n → f n = f m) (h : Interspersed R ms ns)
    : ns.filterMap f = ms.filterMap f := by
  induction h with
  | nil => rfl
  | comment hc _ ih => rw [List.filterMap_cons, hcomment _ hc, ih]
  | keep hmn _ ih => rw [List.filterMap_cons, List.filterMap_cons, hf _ _ hmn, ih]

theorem flatMap_eq {α : Type} {f : Node → List α} (hcomment : ∀ c, IsComment c → f c = [])
    (hf : ∀ m n, R m n → f n = f m) (h : Interspersed R ms ns)
    : ns.flatMap f = ms.flatMap f := by
  induction h with
  | nil => rfl
  | comment hc _ ih => rw [List.flatMap_cons, hcomment _ hc, List.nil_append, ih]
  | keep hmn _ ih => rw [List.flatMap_cons, List.flatMap_cons, hf _ _ hmn, ih]

end Interspersed

namespace Commented

variable {m n : Node}

theorem refl (n : Node) : Commented n n := by
  induction n using Node.induction_children with
  | h n ih =>
    have hparts : List.Forall₂ Commented n.children n.children := by
      rw [List.forall₂_same]
      exact ih
    by_cases hkind : n.kind ∈ closedKinds
    . apply closed ⟨rfl, rfl, rfl, rfl, rfl⟩ hkind hparts
      intro _ _
      rw [List.forall₂_same]
      intro c _
      exact ⟨rfl, rfl⟩
    . exact opened ⟨rfl, rfl, rfl, rfl, rfl⟩ hkind (.of_forall₂ hparts)

theorem sameLabel (h : Commented m n) : SameLabel m n := by
  cases h with
  | opened hlabel _ _ => exact hlabel
  | closed hlabel _ _ _ => exact hlabel

theorem interspersed (h : Commented m n) : Interspersed Commented m.children n.children := by
  cases h with
  | opened _ _ hparts => exact hparts
  | closed _ _ hparts _ => exact .of_forall₂ hparts

theorem forall₂_children (hkind : m.kind ∈ closedKinds) (h : Commented m n)
    : List.Forall₂ Commented m.children n.children := by
  cases h with
  | opened _ hopen _ => exact absurd hkind hopen
  | closed _ _ hparts _ => exact hparts

theorem forall₂_filter_kind {P : String → Bool} (hP : P "comment" = false) {ms ns : List Node}
    (h : Interspersed Commented ms ns)
    : List.Forall₂ Commented (ms.filter (P ·.kind)) (ns.filter (P ·.kind)) := by
  apply h.forall₂_filter
  . intro c hc
    rw [hc.kind, hP]
  . intro c d hcd
    rw [hcd.sameLabel.kind]

theorem rel_find?_kind {P : String → Bool} (hP : P "comment" = false) {ms ns : List Node}
    (h : Interspersed Commented ms ns)
    : Option.Rel Commented (ms.find? (P ·.kind)) (ns.find? (P ·.kind)) := by
  rw [← List.head?_filter, ← List.head?_filter]
  apply rel_head?
  apply forall₂_filter_kind hP h

theorem interspersed_namedChildren (h : Commented m n)
    : Interspersed Commented m.namedChildren n.namedChildren :=
  h.interspersed.filter fun _ _ hcd => hcd.sameLabel.named

theorem forall₂_namedChildren (hkind : m.kind ∈ closedKinds) (h : Commented m n)
    : List.Forall₂ Commented m.namedChildren n.namedChildren := by
  apply List.rel_filter _ (h.forall₂_children hkind)
  intro c d hcd
  dsimp only
  rw [hcd.sameLabel.named]

theorem rel_child? (h : Commented m n) (field : String)
    : Option.Rel Commented (m.child? field) (n.child? field) := by
  apply h.interspersed.rel_find?
  . intro c hc
    simp [hc.no_field]
  . intro c d hcd
    rw [hcd.sameLabel.field]

end Commented

end CallFlow.Syntax
