import CallFlow.Functions.Docstring

/-!
This module contains which bodies have a docstring (`isSome_docstring?_iff`). A string is taken for one also
where a comma makes it a tuple, or a prefix a template (`docstring_plain_iff`).
-/

namespace CallFlow.Functions

open CallFlow.Syntax

def Lacks (excluded letters : List Char) : Prop := ∀ c ∈ excluded, c ∉ letters

/--
A string literal with both its tokens and without interpolations, that has none of some letters in its
prefix.
-/
structure PlainLiteral (excluded : List Char) (n : Node) : Prop where
  opening : ∃ opening ∈ lastChild? n "string_start",
    Lacks excluded (literalPrefix opening.text.toList)
  closing : ∃ c ∈ n.children, c.kind = "string_end"
  whole : ∀ c ∈ n.children, c.kind ≠ "interpolation"

/--
The literals that a string is made of.
-/
def literalsOf (n : Node) : List Node :=
  if n.kind = "string" then [n] else n.namedChildren.filter (·.kind == "string")

structure PlainString (excluded : List Char) (n : Node) : Prop where
  kind : n.kind = "string" ∨ n.kind = "concatenated_string"
  literal : ∀ m ∈ literalsOf n, PlainLiteral excluded m

def firstStatement? (body : Node) : Option Node := body.namedChildren.find? (·.kind != "comment")

/--
There is one node, and it has a property.
-/
def Alone (P : Node → Prop) : List Node → Prop
  | [n] => P n
  | _ => False

/--
The first statement of a body is a string, and this is all that there is of it in a selection of its parts.
-/
def OpensWithString (excluded : List Char) (parts : Node → List Node) (body : Node) : Prop :=
  ∃ statement ∈ firstStatement? body,
    statement.kind = "expression_statement" ∧ Alone (PlainString excluded) (parts statement)

/--
The first statement of a body has a part without a name, as the comma that makes a tuple of a string.
-/
def HasPunctuation (body : Node) : Prop :=
  ∃ statement ∈ firstStatement? body, ∃ c ∈ statement.children, c.named = false

/--
The first statement of a body has the letter of a template in the prefix of a literal.
-/
def HasTemplate (body : Node) : Prop :=
  ∃ statement ∈ firstStatement? body, ∃ n ∈ statement.namedChildren, ∃ m ∈ literalsOf n,
    ∃ opening ∈ lastChild? m "string_start", 't' ∈ literalPrefix opening.text.toList

instance (excluded letters : List Char) : Decidable (Lacks excluded letters) :=
  decidable_of_iff (excluded.all (· ∉ letters) = true) (by simp [Lacks])

instance (excluded : List Char) (n : Node) : Decidable (PlainLiteral excluded n) :=
  decidable_of_iff
    ((∃ opening ∈ lastChild? n "string_start", Lacks excluded (literalPrefix opening.text.toList)) ∧
      (∃ c ∈ n.children, c.kind = "string_end") ∧ ∀ c ∈ n.children, c.kind ≠ "interpolation")
    ⟨fun h => ⟨h.1, h.2.1, h.2.2⟩, fun h => ⟨h.opening, h.closing, h.whole⟩⟩

instance (excluded : List Char) (n : Node) : Decidable (PlainString excluded n) :=
  decidable_of_iff
    ((n.kind = "string" ∨ n.kind = "concatenated_string") ∧
      ∀ m ∈ literalsOf n, PlainLiteral excluded m)
    ⟨fun h => ⟨h.1, h.2⟩, fun h => ⟨h.kind, h.literal⟩⟩

instance (P : Node → Prop) [DecidablePred P] : DecidablePred (Alone P)
  | [] => inferInstanceAs (Decidable False)
  | [n] => inferInstanceAs (Decidable (P n))
  | _ :: _ :: _ => inferInstanceAs (Decidable False)

instance (excluded : List Char) (parts : Node → List Node) (body : Node)
    : Decidable (OpensWithString excluded parts body) :=
  inferInstanceAs (Decidable (∃ statement ∈ firstStatement? body, _ ∧ _))

instance (body : Node) : Decidable (HasPunctuation body) :=
  inferInstanceAs (Decidable (∃ statement ∈ firstStatement? body, _))

instance (body : Node) : Decidable (HasTemplate body) :=
  inferInstanceAs (Decidable (∃ statement ∈ firstStatement? body, ∃ n ∈ statement.namedChildren, _))

theorem alone_iff {P : Node → Prop} {ns : List Node} : Alone P ns ↔ ∃ n, ns = [n] ∧ P n := by
  unfold Alone
  split
  . next n =>
    constructor
    . intro h
      exact ⟨n, rfl, h⟩
    . rintro ⟨m, heq, h⟩
      injection heq with heq
      rw [heq]
      exact h
  . next hne =>
    constructor
    . intro h
      contradiction
    . rintro ⟨m, heq, _⟩
      exact hne m heq

theorem isSome_mapM_iff {α β : Type} (l : List α) (f : α → Option β)
    : (l.mapM f).isSome ↔ ∀ a ∈ l, (f a).isSome := by
  induction l with
  | nil => simp
  | cons a l ih =>
    rw [List.mapM_cons, List.forall_mem_cons, ← ih]
    cases f a with
    | none => simp
    | some b => cases l.mapM f <;> simp

theorem isSome_lastChild?_iff (n : Node) (kind : String)
    : (lastChild? n kind).isSome ↔ ∃ c ∈ n.children, c.kind = kind := by
  unfold lastChild?
  simp

theorem isSome_literal?_iff (n : Node) : (literal? n).isSome ↔ PlainLiteral ['b', 'f'] n := by
  have hwhole : ¬n.children.any (·.kind == "interpolation") = true
      ↔ ∀ c ∈ n.children, c.kind ≠ "interpolation" := by simp
  have hletters : ∀ letters : List Char, ¬(letters.contains 'b' || letters.contains 'f') = true
      ↔ Lacks ['b', 'f'] letters := by simp [Lacks]
  unfold literal?
  constructor
  . intro h
    split at h
    . contradiction
    . next hany =>
      split at h
      . next opening closing hopening hclosing =>
        dsimp only at h
        split at h
        . contradiction
        . next hprefix =>
          refine ⟨⟨opening, hopening, (hletters _).mp hprefix⟩, ?_, hwhole.mp hany⟩
          rw [← isSome_lastChild?_iff, hclosing]
          rfl
      . contradiction
  . intro h
    rcases h.opening with ⟨opening, hopening, hprefix⟩
    have hclosing := h.closing
    rw [← isSome_lastChild?_iff, Option.isSome_iff_exists] at hclosing
    rcases hclosing with ⟨closing, hclosing⟩
    rw [Option.mem_def] at hopening
    rw [if_neg (hwhole.mpr h.whole), hopening, hclosing]
    dsimp only
    rw [if_neg ((hletters _).mpr hprefix)]
    rfl

theorem isSome_string?_iff (n : Node) : (string? n).isSome ↔ PlainString ['b', 'f'] n := by
  unfold string?
  split
  . next hkind =>
    rw [isSome_literal?_iff]
    have hliterals : literalsOf n = [n] := if_pos hkind
    constructor
    . intro h
      refine ⟨.inl hkind, ?_⟩
      rw [hliterals, List.forall_mem_singleton]
      exact h
    . intro h
      have := h.literal
      rw [hliterals, List.forall_mem_singleton] at this
      exact this
  . next hkind =>
    have hliterals : literalsOf n = n.namedChildren.filter (·.kind == "string") := if_neg hkind
    split
    . next hkind' =>
      rw [Option.isSome_map, isSome_mapM_iff, ← hliterals]
      simp only [isSome_literal?_iff]
      constructor
      . intro h
        exact ⟨.inr hkind', h⟩
      . intro h
        exact h.literal
    . next hkind' =>
      constructor
      . intro h
        contradiction
      . intro h
        cases h.kind with
        | inl heq => exact absurd heq hkind
        | inr heq => exact absurd heq hkind'

/--
A body has a docstring if its first statement has one part with a name, a string of plain literals that are
neither bytes nor formatted.
-/
theorem isSome_docstring?_iff (body : Node)
    : (docstring? body).isSome ↔ OpensWithString ['b', 'f'] Node.namedChildren body := by
  unfold docstring? OpensWithString firstStatement?
  cases body.namedChildren.find? (·.kind != "comment") with
  | none => simp
  | some statement =>
    dsimp only
    by_cases hkind : statement.kind = "expression_statement"
    . rw [if_pos hkind]
      simp only [Option.mem_some_iff, exists_eq_left', hkind, true_and]
      split
      . next expression heq =>
        rw [heq]
        exact isSome_string?_iff expression
      . next hne =>
        rw [alone_iff]
        constructor
        . intro h
          contradiction
        . rintro ⟨expression, heq, _⟩
          exact absurd heq (hne expression)
    . rw [if_neg hkind]
      simp [hkind]

theorem docSummary_of_docstring?_eq_none {body : Node} (h : docstring? body = none)
    : docSummary body = "" := by
  unfold docSummary
  rw [h]

theorem plainString_template_iff {n : Node} (h : PlainString ['b', 'f'] n)
    : PlainString ['b', 'f', 't'] n
        ↔
      ∀ m ∈ literalsOf n, ∀ opening ∈ lastChild? m "string_start",
        't' ∉ literalPrefix opening.text.toList
      := by
  constructor
  . intro h' m hm opening hopening
    rcases (h'.literal m hm).opening with ⟨opening', hopening', hletters⟩
    have : opening' = opening := Option.mem_unique hopening' hopening
    rw [← this]
    apply hletters
    simp
  . intro htemplate
    refine ⟨h.kind, ?_⟩
    intro m hm
    have hm' := h.literal m hm
    rcases hm'.opening with ⟨opening, hopening, hletters⟩
    refine ⟨⟨opening, hopening, ?_⟩, hm'.closing, hm'.whole⟩
    have := htemplate m hm opening hopening
    unfold Lacks at hletters ⊢
    simp_all

theorem alone_children_iff {P : Node → Prop} {statement expression : Node}
    (hnamed : statement.namedChildren = [expression])
    : Alone P statement.children ↔ (∀ c ∈ statement.children, c.named = true) ∧ P expression := by
  rw [alone_iff]
  unfold Node.namedChildren at hnamed
  constructor
  . rintro ⟨n, hchildren, hn⟩
    rw [hchildren] at hnamed ⊢
    have hmem : expression ∈ [n].filter (·.named) := by
      rw [hnamed]
      apply List.mem_cons_self
    rw [List.mem_filter, List.mem_singleton] at hmem
    rcases hmem with ⟨rfl, htrue⟩
    rw [List.forall_mem_singleton]
    exact ⟨htrue, hn⟩
  . rintro ⟨hall, hexpression⟩
    refine ⟨expression, ?_, hexpression⟩
    rw [← hnamed, eq_comm, List.filter_eq_self]
    exact hall

theorem plain_iff_of_opensWithString {body : Node}
    (h : OpensWithString ['b', 'f'] Node.namedChildren body)
    : OpensWithString ['b', 'f', 't'] Node.children body
        ↔
      ¬HasPunctuation body ∧ ¬HasTemplate body
      := by
  rcases h with ⟨statement, hstatement, hkind, halone⟩
  rw [alone_iff] at halone
  rcases halone with ⟨expression, hnamed, hstring⟩
  rw [Option.mem_def] at hstatement
  unfold OpensWithString HasPunctuation HasTemplate
  simp only [hstatement, Option.mem_some_iff, exists_eq_left', hkind, true_and, hnamed,
    List.mem_singleton, exists_eq_left]
  rw [alone_children_iff hnamed, plainString_template_iff hstring]
  simp

/--
A body has a docstring just if its first statement is taken for one by its parts with names. It is a plain
string and nothing else unless there is punctuation beside it or the letter of a template before it. Without
a docstring there is no summary.
-/
theorem docstring_plain_iff (body : Node)
    : ((docstring? body).isSome ↔ OpensWithString ['b', 'f'] Node.namedChildren body) ∧
        ((docstring? body).isSome →
          (OpensWithString ['b', 'f', 't'] Node.children body ↔
            ¬HasPunctuation body ∧ ¬HasTemplate body)) ∧
        ((docstring? body).isNone → docSummary body = "") := by
  refine ⟨isSome_docstring?_iff body, ?_, ?_⟩
  . rw [isSome_docstring?_iff]
    apply plain_iff_of_opensWithString
  . intro h
    apply docSummary_of_docstring?_eq_none
    rw [← Option.isNone_iff_eq_none]
    exact h

/--
A literal in double quotes from a byte offset on.
-/
def literalNode (start : Nat) (letters body : String) : Node where
  kind := "string"
  start := { byte := start }
  stop := { byte := start + letters.length + body.length + 2 }
  text := letters ++ "\x22" ++ body ++ "\x22"
  children := [
    { kind := "string_start", text := letters ++ "\x22"
      start := { byte := start }
      stop := { byte := start + letters.length + 1 } },
    { kind := "string_content", text := body
      start := { byte := start + letters.length + 1 }
      stop := { byte := start + letters.length + body.length + 1 } },
    { kind := "string_end", text := "\x22"
      start := { byte := start + letters.length + body.length + 1 }
      stop := { byte := start + letters.length + body.length + 2 } }
  ]

/--
A body that begins with a comment and has one statement behind it.
-/
def bodyOf (parts : List Node) : Node where
  kind := "block"
  children := [{ kind := "comment" }, { kind := "expression_statement", children := parts }]

/--
A raw literal and one with an escape sequence, with a comment between them.
-/
theorem docstring_plain_iff_concatenated :
    let body := bodyOf [
      { kind := "concatenated_string"
        children := [literalNode 0 "R" "\\t", { kind := "comment" }, literalNode 9 "u" "\\x21"] }
    ]
    docSummary body = "\\t!" ∧
      (docstring? body).isSome ∧
      OpensWithString ['b', 'f', 't'] Node.children body := by
  intro body
  have hsome : (docstring? body).isSome := by decide +kernel
  have hplain : ¬HasPunctuation body ∧ ¬HasTemplate body := by decide +kernel
  exact ⟨by decide +kernel, hsome, ((docstring_plain_iff body).2.1 hsome).mpr hplain⟩

/--
A string with a comma behind it, and a template without interpolations.
-/
theorem docstring_not_plain :
    let tuple := bodyOf [literalNode 0 "" "doc", { kind := ",", named := false }]
    let template := bodyOf [literalNode 0 "t" "doc"]
    (docSummary tuple = "doc" ∧ ¬OpensWithString ['b', 'f', 't'] Node.children tuple) ∧
      docSummary template = "doc" ∧ ¬OpensWithString ['b', 'f', 't'] Node.children template := by
  decide +kernel

end CallFlow.Functions
