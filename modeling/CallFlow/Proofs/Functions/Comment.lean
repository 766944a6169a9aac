import CallFlow.Proofs.Functions.Docstring
import CallFlow.Proofs.Functions.Signature
import CallFlow.Proofs.Syntax.Comment

/-!
This module contains that comments say nothing about functions: the parameters, annotations, docstrings and
steps that are read from a tree stay the same with more comments in it, and so does its table
(`extract_commented`).
-/

namespace CallFlow.Functions

open CallFlow.Syntax

namespace Annotation

variable {m n : Node}

theorem ofMember_eq (h : SameLabel m n) (base : Annotation) : ofMember base n = ofMember base m := by
  unfold ofMember
  rw [h.kind, h.text]

theorem ofAttribute_eq (h : Commented m n) : ofAttribute n = ofAttribute m := by
  have hobject := h.rel_child? "object"
  have hmember := h.rel_child? "attribute"
  unfold ofAttribute
  generalize m.child? "object" = a, n.child? "object" = b at hobject ⊢
  generalize m.child? "attribute" = a', n.child? "attribute" = b' at hmember ⊢
  cases hobject with
  | none => rfl
  | some hobject =>
    cases hmember with
    | none => rfl
    | some hmember =>
      dsimp only
      rw [hobject.sameLabel.kind, hobject.sameLabel.text, hmember.sameLabel.text]

theorem read_false_eq (h : Commented m n)
    (hparts : ∀ c ∈ m.namedChildren, ∀ d, Commented c d → ofNode d = ofNode c)
    : read false n = read false m := by
  have hkind : n.kind = m.kind := h.sameLabel.kind
  by_cases hidentifier : m.kind = "identifier"
  . rw [read_false_of_identifier hidentifier, read_false_of_identifier (hkind.trans hidentifier),
      h.sameLabel.text]
  . by_cases hattribute : m.kind = "attribute"
    . rw [read_false_of_attribute hattribute, read_false_of_attribute (hkind.trans hattribute)]
      exact ofAttribute_eq h
    . by_cases hmember : m.kind = "member_type"
      . have hnamed := h.forall₂_namedChildren (by simp [hmember, closedKinds])
        rw [read_false_of_memberType hmember, read_false_of_memberType (hkind.trans hmember)]
        generalize m.namedChildren = cs, n.namedChildren = ds at hnamed hparts ⊢
        rcases hnamed with _ | ⟨hbase, _ | ⟨hlast, _ | ⟨_, _⟩⟩⟩
        . rfl
        . rfl
        . dsimp only
          rw [hparts _ List.mem_cons_self _ hbase, ofMember_eq hlast.sameLabel]
        . rfl
      . rw [read_eq, read_eq, hkind]
        simp only [hidentifier, hattribute, hmember, Bool.false_and, Bool.false_eq_true, if_false]

theorem ofNode_eq_of_read_false_eq (h : Commented m n) (hread : read false n = read false m)
    (hparts : ∀ c ∈ m.namedChildren, ∀ d, Commented c d → read false d = read false c)
    : ofNode n = ofNode m := by
  have hkind : n.kind = m.kind := h.sameLabel.kind
  by_cases htype : m.kind = "type"
  . have hnamed := h.forall₂_namedChildren (by simp [htype, closedKinds])
    rw [ofNode_of_type htype, ofNode_of_type (hkind.trans htype)]
    generalize m.namedChildren = cs, n.namedChildren = ds at hnamed hparts ⊢
    rcases hnamed with _ | ⟨hinner, _ | ⟨_, _⟩⟩
    . rfl
    . exact hparts _ List.mem_cons_self _ hinner
    . rfl
  . have htype' : n.kind ≠ "type" := by
      rw [hkind]
      exact htype
    rw [ofNode_of_not_type htype, ofNode_of_not_type htype', hread]

theorem read_false_and_ofNode_eq (h : Commented m n)
    : read false n = read false m ∧ ofNode n = ofNode m := by
  -- What a node holds is read without a wrapper, and the base of a member type with one.
  induction m using Node.induction_children generalizing n with
  | h m ih =>
    have hparts : ∀ c ∈ m.namedChildren, ∀ d, Commented c d →
        read false d = read false c ∧ ofNode d = ofNode c := by
      intro c hc d hcd
      exact ih c (mem_children_of_namedChildren hc) hcd
    have hread := read_false_eq h fun c hc d hcd => (hparts c hc d hcd).2
    exact ⟨hread, ofNode_eq_of_read_false_eq h hread fun c hc d hcd => (hparts c hc d hcd).1⟩

theorem ofNode_eq (h : Commented m n) : ofNode n = ofNode m := (read_false_and_ofNode_eq h).2

theorem ofField_eq (h : Commented m n) (field : String) : ofField field n = ofField field m := by
  have hfield := h.rel_child? field
  unfold ofField
  generalize m.child? field = a, n.child? field = b at hfield ⊢
  cases hfield with
  | none => rfl
  | some hfield => exact ofNode_eq hfield

end Annotation

section Definition

variable {m n : Node}

theorem Parameter.ofNode?_eq (h : Commented m n) : ofNode? n = ofNode? m := by
  have hidentifier := Commented.rel_find?_kind (P := (· == "identifier")) rfl h.interspersed_namedChildren
  have hname : Option.Rel Commented ((m.child? "name").filter (·.kind == "identifier"))
      ((n.child? "name").filter (·.kind == "identifier")) := by
    apply rel_filter _ (h.rel_child? "name")
    intro c d hcd
    rw [hcd.sameLabel.kind]
  unfold ofNode?
  rw [h.sameLabel.kind, h.sameLabel.text, Annotation.ofField_eq h]
  congr 2
  . apply map_eq_of_rel _ hidentifier
    intro c d hcd
    rw [hcd.sameLabel.text]
  . congr 1
    apply map_eq_of_rel _ hname
    intro c d hcd
    rw [hcd.sameLabel.text]

theorem Parameter.ofNode?_of_isComment {c : Node} (h : IsComment c) : ofNode? c = none := by
  unfold ofNode?
  simp [h.kind]

theorem parametersOf_eq (h : Commented m n) : parametersOf n = parametersOf m := by
  apply h.interspersed_namedChildren.filterMap_eq
  . intro c
    exact Parameter.ofNode?_of_isComment
  . intro c d
    exact Parameter.ofNode?_eq

theorem any_kind_eq {cs ds : List Node} (kind : String)
    (h : List.Forall₂ (fun c d => SameLabel c d) cs ds)
    : ds.any (·.kind == kind) = cs.any (·.kind == kind) := by
  induction h with
  | nil => rfl
  | cons h _ ih => rw [List.any_cons, List.any_cons, ih, h.kind]

theorem textBetween_eq {m n opening closing opening' closing' : Node} (h : n.text = m.text)
    (hopening : SameOffsets m n opening opening') (hclosing : SameOffsets m n closing closing')
    : textBetween n opening' closing' = textBetween m opening closing := by
  unfold textBetween
  rw [h, hopening.stop, hclosing.start]

theorem literal?_eq (hkind : m.kind = "string") (h : Commented m n) : literal? n = literal? m := by
  have hparts : List.Forall₂ Commented m.children n.children :=
    h.forall₂_children (by simp [hkind, closedKinds])
  have hany := any_kind_eq "interpolation" (hparts.imp fun _ _ hcd => hcd.sameLabel)
  unfold literal?
  rw [hany]
  split
  . rfl
  . next hwhole =>
    have hoffsets : List.Forall₂ (SameOffsets m n) m.children n.children := by
      cases h with
      | opened _ hopen _ => simp [hkind, closedKinds] at hopen
      | closed _ _ _ hoffsets => exact hoffsets hkind (by simpa using hwhole)
    have hlast : ∀ kind, Option.Rel (fun c d => SameLabel c d ∧ SameOffsets m n c d)
        (lastChild? m kind) (lastChild? n kind) := by
      intro kind
      apply rel_getLast?
      apply List.rel_filter
      . intro c d hcd
        dsimp only
        rw [hcd.1.kind]
      . apply List.Forall₂.mp _ hparts hoffsets
        intro c d hcd hoffset
        exact ⟨hcd.sameLabel, hoffset⟩
    have hopening := hlast "string_start"
    have hclosing := hlast "string_end"
    generalize lastChild? m "string_start" = a, lastChild? n "string_start" = b at hopening ⊢
    generalize lastChild? m "string_end" = a', lastChild? n "string_end" = b' at hclosing ⊢
    cases hopening with
    | none => rfl
    | some hopening =>
      cases hclosing with
      | none => rfl
      | some hclosing =>
        dsimp only
        rw [hopening.1.text, textBetween_eq h.sameLabel.text hopening.2 hclosing.2]

theorem string?_eq (h : Commented m n) : string? n = string? m := by
  unfold string?
  rw [h.sameLabel.kind]
  split
  . next hkind => exact literal?_eq hkind h
  . split
    . congr 1
      apply mapM_eq_of_forall₂ (R := Commented)
      . intro c hc d hcd
        rw [List.mem_filter] at hc
        exact literal?_eq (eq_of_beq hc.2) hcd
      . exact Commented.forall₂_filter_kind (P := (· == "string")) rfl h.interspersed_namedChildren
    . rfl

theorem docstring?_eq (h : Commented m n) : docstring? n = docstring? m := by
  have hfirst : Option.Rel Commented (m.namedChildren.find? (·.kind != "comment"))
      (n.namedChildren.find? (·.kind != "comment")) :=
    Commented.rel_find?_kind (P := (· != "comment")) rfl h.interspersed_namedChildren
  unfold docstring?
  generalize m.namedChildren.find? (·.kind != "comment") = a,
    n.namedChildren.find? (·.kind != "comment") = b at hfirst ⊢
  cases hfirst with
  | none => rfl
  | @some statement statement' hstatement =>
    dsimp only
    rw [hstatement.sameLabel.kind]
    split
    . next hkind =>
      have hnamed := hstatement.forall₂_namedChildren (by simp [hkind, closedKinds])
      generalize statement.namedChildren = cs, statement'.namedChildren = ds at hnamed ⊢
      rcases hnamed with _ | ⟨hexpression, _ | ⟨_, _⟩⟩
      . rfl
      . exact string?_eq hexpression
      . rfl
    . rfl

theorem docSummary_eq (h : Commented m n) : docSummary n = docSummary m := by
  unfold docSummary
  rw [docstring?_eq h]

theorem ofDefinition_eq (h : Commented m n) (name : String)
    : Record.ofDefinition name n = Record.ofDefinition name m := by
  unfold Record.ofDefinition
  have hparameters : (n.child? "parameters").map parametersOf = (m.child? "parameters").map parametersOf :=
    map_eq_of_rel (fun _ _ => parametersOf_eq) (h.rel_child? "parameters")
  have hbody : (n.child? "body").map docSummary = (m.child? "body").map docSummary :=
    map_eq_of_rel (fun _ _ => docSummary_eq) (h.rel_child? "body")
  rw [hparameters, hbody, Annotation.ofField_eq h]

theorem definedName?_eq (h : Commented m n) : definedName? n = definedName? m := by
  have hname : (n.child? "name").map Node.text = (m.child? "name").map Node.text :=
    map_eq_of_rel (fun _ _ hcd => hcd.sameLabel.text) (h.rel_child? "name")
  unfold definedName?
  rw [h.sameLabel.kind, hname]

theorem callStep?_eq (h : Commented m n) (scope : Option String)
    : callStep? scope n = callStep? scope m := by
  have hcallee : callee? n = callee? m := by
    unfold callee?
    apply map_eq_of_rel (R := Commented)
    . intro c d hcd
      exact hcd.sameLabel.text
    . apply rel_filter _ (h.rel_child? "function")
      intro c d hcd
      rw [hcd.sameLabel.kind, hcd.sameLabel.text]
  unfold callStep?
  rw [hcallee]

end Definition

theorem steps_of_isComment {c : Node} (h : IsComment c) (scope : Option String) : steps scope c = [] := by
  rw [steps_eq]
  simp [definedName?, h.kind, h.no_children, stepsAll]

theorem stepsAll_eq {ms ns : List Node} (scope : Option String)
    (h : Interspersed (fun c d => steps scope d = steps scope c) ms ns)
    : stepsAll scope ns = stepsAll scope ms := by
  rw [stepsAll_eq_flatMap, stepsAll_eq_flatMap]
  apply h.flatMap_eq
  . intro c hc
    exact steps_of_isComment hc scope
  . intro c d hcd
    exact hcd

theorem stepsOfDefinition_eq {ms ns : List Node} (name : String) (scope : Option String)
    (h : Interspersed (fun c d => d.field = c.field ∧ ∀ scope, steps scope d = steps scope c) ms ns)
    : stepsOfDefinition name scope ns = stepsOfDefinition name scope ms := by
  induction h with
  | nil => rfl
  | comment hc _ ih =>
    rw [stepsOfDefinition, hc.no_field, if_neg (by simp), steps_of_isComment hc, List.nil_append, ih]
  | keep hmn h ih =>
    have hall := stepsAll_eq scope (h.imp_of_mem fun _ _ _ hcd => hcd.2 scope)
    rw [stepsOfDefinition, stepsOfDefinition, hmn.1, hmn.2, hmn.2, ih, hall]

theorem steps_commented {m n : Node} (h : Commented m n) (scope : Option String)
    : steps scope n = steps scope m := by
  induction m using Node.induction_children generalizing n scope with
  | h m ih =>
    have hparts : Interspersed (fun c d => d.field = c.field ∧ ∀ scope, steps scope d = steps scope c)
        m.children n.children := by
      apply Interspersed.imp_of_mem _ h.interspersed
      intro c hc d hcd
      exact ⟨hcd.sameLabel.field, fun scope => ih c hc hcd scope⟩
    have hall : stepsAll scope n.children = stepsAll scope m.children := by
      apply stepsAll_eq
      apply Interspersed.imp_of_mem _ hparts
      intro c _ d hcd
      exact hcd.2 scope
    rw [steps_eq, steps_eq, definedName?_eq h, h.sameLabel.kind, callStep?_eq h, hall]
    cases definedName? m with
    | none => rfl
    | some name =>
      dsimp only
      rw [ofDefinition_eq h, stepsOfDefinition_eq name scope hparts]

theorem commented_literalNode (start start' : Nat) (letters body : String)
    : Commented (literalNode start letters body) (literalNode start' letters body) := by
  have hleaf : ∀ m n : Node, SameLabel m n → m.kind ∉ closedKinds → m.children = [] → n.children = [] →
      Commented m n := by
    intro m n hlabel hkind hm hn
    apply Commented.opened hlabel hkind
    rw [hm, hn]
    exact .nil
  refine .closed ⟨rfl, rfl, rfl, rfl, rfl⟩ (by simp [literalNode, closedKinds]) ?_ ?_
  . refine .cons ?_ (.cons ?_ (.cons ?_ .nil))
    . exact hleaf _ _ ⟨rfl, rfl, rfl, rfl, rfl⟩ (by simp [closedKinds]) rfl rfl
    . exact hleaf _ _ ⟨rfl, rfl, rfl, rfl, rfl⟩ (by simp [closedKinds]) rfl rfl
    . exact hleaf _ _ ⟨rfl, rfl, rfl, rfl, rfl⟩ (by simp [closedKinds]) rfl rfl
  . intro _ _
    refine .cons ⟨?_, ?_⟩ (.cons ⟨?_, ?_⟩ (.cons ⟨?_, ?_⟩ .nil)) <;> dsimp only [literalNode] <;> omega

/--
The table of a tree stays the same when comments are put into the tree.
-/
theorem extract_commented {m n : Node} (h : Commented m n) : extract n = extract m := by
  unfold extract
  rw [steps_commented h]

/--
A definition with a default value, a docstring of two literals and a call. Comments may stand in all of its
parts, and the literals at some distance from where they are without them.
-/
def loading (comments : List Node) (distance : Nat) : Node where
  kind := "module"
  children := comments ++ [
    { kind := "function_definition"
      children := [identifierNode (some "name") "load"] ++ comments ++ [
        { kind := "parameters"
          field := some "parameters"
          children := [identifierNode none "path"] ++ comments ++ [
            { kind := "default_parameter"
              children := comments ++ [identifierNode (some "name") "n"] }
          ] },
        { kind := "block"
          field := some "body"
          children := comments ++ [
            { kind := "expression_statement"
              children := [
                { kind := "concatenated_string"
                  children := [literalNode (24 + distance) "" "Reads "] ++ comments ++
                    [literalNode (38 + 2 * distance) "r" "lines."] }
              ] }
          ] ++ comments ++ [
            { kind := "expression_statement"
              children := [
                { kind := "call"
                  children := comments ++ [identifierNode (some "function") "read"] }
              ] }
          ] }
      ] }
  ]

def remark : Node where
  kind := "comment"
  text := "# Calls nothing."

theorem extract_commented_loading
    : Commented (loading [] 0) (loading [remark, remark] 40) ∧
        extract (loading [remark, remark] 40) = extract (loading [] 0) ∧
        (extract (loading [] 0)).records = [
          { name := "load"
            parameters := [{ name := "path" }, { name := "n" }]
            summary := "Reads lines."
            calls := ["read"] }
        ] := by
  have hremarks : ∀ {R ms ns}, Interspersed R ms ns → Interspersed R ms ([remark, remark] ++ ns) :=
    fun h => .comment ⟨rfl, rfl, rfl⟩ (.comment ⟨rfl, rfl, rfl⟩ h)
  have h : Commented (loading [] 0) (loading [remark, remark] 40) := by
    refine .opened ⟨rfl, rfl, rfl, rfl, rfl⟩ (by decide) (hremarks (.keep ?_ .nil))
    refine .opened ⟨rfl, rfl, rfl, rfl, rfl⟩ (by decide)
      (.keep (.refl _) (hremarks (.keep ?_ (.keep ?_ .nil))))
    . refine .opened ⟨rfl, rfl, rfl, rfl, rfl⟩ (by decide)
        (.keep (.refl _) (hremarks (.keep ?_ .nil)))
      exact .opened ⟨rfl, rfl, rfl, rfl, rfl⟩ (by decide) (hremarks (.keep (.refl _) .nil))
    . refine .opened ⟨rfl, rfl, rfl, rfl, rfl⟩ (by decide)
        (hremarks (.keep ?_ (hremarks (.keep ?_ .nil))))
      . refine .closed ⟨rfl, rfl, rfl, rfl, rfl⟩ (by decide) (.cons ?_ .nil) (absurd · (by decide))
        exact .opened ⟨rfl, rfl, rfl, rfl, rfl⟩ (by decide)
          (.keep (commented_literalNode _ _ _ _) (hremarks (.keep (commented_literalNode _ _ _ _) .nil)))
      . refine .closed ⟨rfl, rfl, rfl, rfl, rfl⟩ (by decide) (.cons ?_ .nil) (absurd · (by decide))
        exact .opened ⟨rfl, rfl, rfl, rfl, rfl⟩ (by decide) (hremarks (.keep (.refl _) .nil))
  exact ⟨h, extract_commented h, by decide +kernel⟩

end CallFlow.Functions
