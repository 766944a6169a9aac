import CallFlow.Proofs.Functions.Names

/-!
This module contains what signatures are read from. Each named child of a parameter list that declares a
parameter gives one, in order (`declares_parametersOf`). An annotation is a name or a name with one dot if the
shape of its node says so (`ofNode_eq_iff`), and of a chain of more dots nothing is shown
(`ofField_of_chain`).
-/

namespace CallFlow.Functions

open CallFlow.Syntax

namespace Annotation

/--
What a node holds: the one part of a node of kind `type`, or else the node itself.
-/
inductive Wraps : Node → Node → Prop where
  | itself {n : Node} (h : n.kind ≠ "type") : Wraps n n
  | type {n inner : Node} (h : n.kind = "type") (hparts : n.namedChildren = [inner]) : Wraps n inner

inductive IsName (n : Node) : String → Prop where
  | identifier {inner : Node} (h : Wraps n inner) (hkind : inner.kind = "identifier")
    : IsName n inner.text

/--
A name and a member of it, written as an attribute or as a member type.
-/
inductive IsDotted (n : Node) : String → String → Prop where
  | attributeOf {inner object member : Node} (h : Wraps n inner) (hkind : inner.kind = "attribute")
      (hobject : object ∈ inner.child? "object") (hidentifier : object.kind = "identifier")
      (hmember : member ∈ inner.child? "attribute")
    : IsDotted n object.text member.text
  | memberTypeOf {inner base member : Node} {object : String} (h : Wraps n inner)
      (hkind : inner.kind = "member_type") (hparts : inner.namedChildren = [base, member])
      (hbase : IsName base object) (hidentifier : member.kind = "identifier")
    : IsDotted n object member.text

/--
The annotation that the shape of a node says.
-/
inductive StandsFor (n : Node) : Annotation → Prop where
  | name {identifier : String} (h : IsName n identifier) : StandsFor n (.name identifier)
  | dotted {object member : String} (h : IsDotted n object member)
    : StandsFor n (.dotted object member)
  | unrecognised (hname : ∀ identifier, ¬IsName n identifier)
      (hdotted : ∀ object member, ¬IsDotted n object member)
    : StandsFor n .unrecognised

inductive WrittenUnder (field : String) (n : Node) : Annotation → Prop where
  | absent (h : n.child? field = none) : WrittenUnder field n .absent
  | written {m : Node} {a : Annotation} (hm : m ∈ n.child? field) (h : StandsFor m a)
    : WrittenUnder field n a

/--
There are at least so many dots one behind the other in a node, whatever the first of them stands behind.
-/
inductive Chain : Nat → Node → Prop where
  | start (n : Node) : Chain 0 n
  | attributeOf {k : Nat} {n object : Node} (hkind : n.kind = "attribute")
      (hobject : object ∈ n.child? "object") (h : Chain k object)
    : Chain (k + 1) n
  | memberTypeOf {k : Nat} {n base : Node} {rest : List Node} (hkind : n.kind = "member_type")
      (hparts : n.namedChildren = base :: rest) (h : Chain k base)
    : Chain (k + 1) n
  | wrapped {k : Nat} {n inner : Node} (hkind : n.kind = "type") (hinner : inner ∈ n.namedChildren)
      (h : Chain k inner)
    : Chain k n

theorem read_eq (wrapped : Bool) (n : Node)
    : read wrapped n
        =
      if wrapped && n.kind == "type" then
        match readAll false n.children with
        | [(_, a)] => a
        | _ => unrecognised
      else if n.kind = "identifier" then name n.text
      else if n.kind = "attribute" then ofAttribute n
      else if n.kind = "member_type" then
        match readAll true n.children with
        | [(_, base), (member, _)] => ofMember base member
        | _ => unrecognised
      else unrecognised
      := by
  cases n
  unfold read
  rfl

theorem ofNode_of_type {n : Node} (h : n.kind = "type")
    : ofNode n
        =
      match n.namedChildren with
      | [c] => read false c
      | _ => unrecognised
      := by
  unfold ofNode Node.namedChildren
  -- There is one reading for each named child, so both lists have a single element or neither has.
  rw [read_eq, h, readAll_eq_map]
  generalize n.children.filter (·.named) = parts
  rcases parts with _ | ⟨c, _ | ⟨c', cs⟩⟩
  . rfl
  . rfl
  . rfl

theorem ofNode_of_not_type {n : Node} (h : n.kind ≠ "type") : ofNode n = read false n := by
  have hkind : (n.kind == "type") = false := by simpa using h
  unfold ofNode
  rw [read_eq, read_eq, hkind, Bool.and_false, Bool.and_false]

theorem read_false_of_memberType {n : Node} (h : n.kind = "member_type")
    : read false n
        =
      match n.namedChildren with
      | [base, member] => ofMember (ofNode base) member
      | _ => unrecognised
      := by
  unfold ofNode Node.namedChildren
  rw [read_eq, h, readAll_eq_map, readAll_eq_map]
  generalize n.children.filter (·.named) = parts
  rcases parts with _ | ⟨base, _ | ⟨member, _ | ⟨c, cs⟩⟩⟩
  . rfl
  . rfl
  . rfl
  . rfl

theorem ofNode_of_wraps {n inner : Node} (h : Wraps n inner) : ofNode n = read false inner := by
  cases h with
  | itself h => exact ofNode_of_not_type h
  | type h hparts => rw [ofNode_of_type h, hparts]

theorem read_false_of_identifier {n : Node} (h : n.kind = "identifier")
    : read false n = name n.text := by
  rw [read_eq, h]
  rfl

theorem read_false_of_attribute {n : Node} (h : n.kind = "attribute")
    : read false n = ofAttribute n := by
  rw [read_eq, h]
  rfl

/--
What a node without a wrapper may be read as.
-/
inductive ReadAs (n : Node) : Annotation → Prop where
  | name (hkind : n.kind = "identifier") : ReadAs n (.name n.text)
  | attributeOf {object member : Node} (hkind : n.kind = "attribute")
      (hobject : object ∈ n.child? "object") (hidentifier : object.kind = "identifier")
      (hmember : member ∈ n.child? "attribute")
    : ReadAs n (.dotted object.text member.text)
  | memberTypeOf {base member : Node} {object : String} (hkind : n.kind = "member_type")
      (hparts : n.namedChildren = [base, member]) (hbase : ofNode base = .name object)
      (hidentifier : member.kind = "identifier")
    : ReadAs n (.dotted object member.text)
  | unrecognised : ReadAs n .unrecognised

theorem readAs_ofAttribute {n : Node} (h : n.kind = "attribute") : ReadAs n (ofAttribute n) := by
  unfold ofAttribute
  split
  . next object member hobject hmember =>
    split
    . next hidentifier => exact .attributeOf h hobject hidentifier hmember
    . exact .unrecognised
  . exact .unrecognised

theorem readAs_ofMember {n base member : Node} (h : n.kind = "member_type")
    (hparts : n.namedChildren = [base, member]) : ReadAs n (ofMember (ofNode base) member) := by
  unfold ofMember
  split
  . next object hbase =>
    split
    . next hidentifier => exact .memberTypeOf h hparts hbase hidentifier
    . exact .unrecognised
  . exact .unrecognised

theorem readAs_read_false (n : Node) : ReadAs n (read false n) := by
  by_cases hidentifier : n.kind = "identifier"
  . rw [read_false_of_identifier hidentifier]
    exact .name hidentifier
  . by_cases hattribute : n.kind = "attribute"
    . rw [read_false_of_attribute hattribute]
      exact readAs_ofAttribute hattribute
    . by_cases hmemberType : n.kind = "member_type"
      . rw [read_false_of_memberType hmemberType]
        split
        . next hparts => exact readAs_ofMember hmemberType hparts
        . exact .unrecognised
      . rw [read_eq, if_neg hidentifier, if_neg hattribute, if_neg hmemberType]
        exact .unrecognised

/--
What is read from a node is read from the part that it holds.
-/
theorem exists_readAs {n : Node} {a : Annotation} (h : ofNode n = a) (ha : a ≠ unrecognised)
    : ∃ inner, Wraps n inner ∧ ReadAs inner a := by
  by_cases htype : n.kind = "type"
  . rw [ofNode_of_type htype] at h
    split at h
    . next inner hparts =>
      rw [← h]
      exact ⟨inner, .type htype hparts, readAs_read_false inner⟩
    . exact absurd h.symm ha
  . rw [ofNode_of_not_type htype] at h
    rw [← h]
    exact ⟨n, .itself htype, readAs_read_false n⟩

theorem ofNode_ne_absent (n : Node) : ofNode n ≠ absent := by
  intro h
  rcases exists_readAs h (by simp) with ⟨inner, _, hread⟩
  cases hread

theorem ofNode_eq_name_iff (n : Node) (identifier : String)
    : ofNode n = name identifier ↔ IsName n identifier := by
  constructor
  . intro h
    rcases exists_readAs h (by simp) with ⟨inner, hinner, hread⟩
    cases hread with
    | name hkind => exact .identifier hinner hkind
  . rintro ⟨hinner, hkind⟩
    rw [ofNode_of_wraps hinner, read_false_of_identifier hkind]

theorem ofNode_eq_dotted_iff (n : Node) (object member : String)
    : ofNode n = dotted object member ↔ IsDotted n object member := by
  constructor
  . intro h
    rcases exists_readAs h (by simp) with ⟨inner, hinner, hread⟩
    cases hread with
    | attributeOf hkind hobject hidentifier hmember =>
      exact .attributeOf hinner hkind hobject hidentifier hmember
    | memberTypeOf hkind hparts hbase hidentifier =>
      rw [ofNode_eq_name_iff] at hbase
      exact .memberTypeOf hinner hkind hparts hbase hidentifier
  . intro h
    cases h with
    | attributeOf hinner hkind hobject hidentifier hmember =>
      rw [Option.mem_def] at hobject hmember
      rw [ofNode_of_wraps hinner, read_false_of_attribute hkind]
      unfold ofAttribute
      rw [hobject, hmember]
      exact if_pos hidentifier
    | memberTypeOf hinner hkind hparts hbase hidentifier =>
      rw [← ofNode_eq_name_iff] at hbase
      rw [ofNode_of_wraps hinner, read_false_of_memberType hkind, hparts]
      dsimp only
      rw [hbase]
      exact if_pos hidentifier

theorem ofNode_eq_iff (n : Node) (a : Annotation) : ofNode n = a ↔ StandsFor n a := by
  constructor
  . rintro rfl
    cases ha : ofNode n with
    | absent => exact absurd ha (ofNode_ne_absent n)
    | name identifier => exact .name ((ofNode_eq_name_iff n identifier).mp ha)
    | dotted object member => exact .dotted ((ofNode_eq_dotted_iff n object member).mp ha)
    | unrecognised =>
      apply StandsFor.unrecognised
      . intro identifier h
        rw [← ofNode_eq_name_iff, ha] at h
        contradiction
      . intro object member h
        rw [← ofNode_eq_dotted_iff, ha] at h
        contradiction
  . intro h
    cases h with
    | name h => exact (ofNode_eq_name_iff n _).mpr h
    | dotted h => exact (ofNode_eq_dotted_iff n _ _).mpr h
    | unrecognised hname hdotted =>
      cases ha : ofNode n with
      | absent => exact absurd ha (ofNode_ne_absent n)
      | name identifier => exact absurd ((ofNode_eq_name_iff n identifier).mp ha) (hname identifier)
      | dotted object member =>
        exact absurd ((ofNode_eq_dotted_iff n object member).mp ha) (hdotted object member)
      | unrecognised => rfl

theorem ofField_eq_iff (field : String) (n : Node) (a : Annotation)
    : ofField field n = a ↔ WrittenUnder field n a := by
  unfold ofField
  cases hfield : n.child? field with
  | none =>
    constructor
    . rintro rfl
      exact .absent hfield
    . intro h
      cases h with
      | absent _ => rfl
      | written hm _ => simp [hfield] at hm
  | some m =>
    dsimp only
    rw [ofNode_eq_iff]
    constructor
    . exact .written hfield
    . intro h
      cases h with
      | absent h => simp [hfield] at h
      | written hm h =>
        rw [Option.mem_unique hfield hm]
        exact h

theorem WrittenUnder.ofField (field : String) (n : Node)
    : WrittenUnder field n (ofField field n) := by
  rw [← ofField_eq_iff]

theorem Chain.kind_ne_identifier {k : Nat} {n : Node} (h : Chain (k + 1) n)
    : n.kind ≠ "identifier" := by
  intro hkind
  cases h with
  | attributeOf h _ _ => simp [h] at hkind
  | memberTypeOf h _ _ => simp [h] at hkind
  | wrapped h _ _ => simp [h] at hkind

theorem Chain.of_wraps {k : Nat} {n inner : Node} (h : Chain k n) (hinner : Wraps n inner)
    : Chain k inner := by
  cases hinner with
  | itself _ => exact h
  | type hkind hparts =>
    cases h with
    | start n => exact .start inner
    | attributeOf h _ _ => simp [h] at hkind
    | memberTypeOf h _ _ => simp [h] at hkind
    | wrapped _ hmem h =>
      rw [hparts, List.mem_singleton] at hmem
      rw [← hmem]
      exact h

theorem Chain.not_isName {k : Nat} {n : Node} (h : Chain (k + 1) n) (identifier : String)
    : ¬IsName n identifier := by
  rintro ⟨hinner, hkind⟩
  exact (h.of_wraps hinner).kind_ne_identifier hkind

theorem Chain.not_isDotted {k : Nat} {n : Node} (h : Chain (k + 2) n) (object member : String)
    : ¬IsDotted n object member := by
  intro hdotted
  cases hdotted with
  | @attributeOf inner _ _ hinner hkind hobject hidentifier _ =>
    cases h.of_wraps hinner with
    | attributeOf _ hobject' h =>
      rw [Option.mem_unique hobject' hobject] at h
      exact h.kind_ne_identifier hidentifier
    | memberTypeOf h _ _ => simp [h] at hkind
    | wrapped h _ _ => simp [h] at hkind
  | memberTypeOf hinner hkind hparts hbase _ =>
    cases h.of_wraps hinner with
    | attributeOf h _ _ => simp [h] at hkind
    | memberTypeOf _ hparts' h =>
      rw [hparts] at hparts'
      injection hparts' with heq _
      rw [← heq] at h
      exact h.not_isName _ hbase
    | wrapped h _ _ => simp [h] at hkind

/--
Not even a part of a chain of two dots or more is shown.
-/
theorem ofField_of_chain {k : Nat} {field : String} {n m : Node} (hm : m ∈ n.child? field)
    (h : Chain (k + 2) m) : ofField field n = unrecognised := by
  rw [ofField_eq_iff]
  exact .written hm (.unrecognised h.not_isName h.not_isDotted)

def DotFree (s : String) : Prop := '.' ∉ s.toList

instance (s : String) : Decidable (DotFree s) := inferInstanceAs (Decidable ('.' ∉ s.toList))

theorem count_dot_text_le {a : Annotation} (h : a.Holds DotFree) : a.text.toList.count '.' ≤ 1 := by
  cases a with
  | absent => decide
  | name identifier =>
    rw [text, List.count_eq_zero_of_not_mem h]
    omega
  | dotted object member =>
    rcases h with ⟨hobject, hmember⟩
    rw [text, String.toList_append, String.toList_append, List.count_append,
      List.count_append, List.count_eq_zero_of_not_mem hobject, List.count_eq_zero_of_not_mem hmember]
    decide
  | unrecognised => decide

end Annotation

/--
What a node declares: a name with nothing else, a name with a type, or a name with a default value and perhaps
a type.
-/
inductive Declares (n : Node) : Parameter → Prop where
  | plain (hkind : n.kind = "identifier") : Declares n { name := n.text, annotation := .absent }
  | typed {m : Node} {a : Annotation} (hkind : n.kind = "typed_parameter")
      (hm : m ∈ n.namedChildren.find? (·.kind = "identifier"))
      (ha : Annotation.WrittenUnder "type" n a)
    : Declares n { name := m.text, annotation := a }
  | default {m : Node} {a : Annotation}
      (hkind : n.kind = "default_parameter" ∨ n.kind = "typed_default_parameter")
      (hm : m ∈ n.child? "name") (hidentifier : m.kind = "identifier")
      (ha : Annotation.WrittenUnder "type" n a)
    : Declares n { name := m.text, annotation := a }

/--
A node declares a parameter that has a name of its own.
-/
def IsDeclaration (n : Node) : Prop :=
  n.kind = "identifier" ∨
    (n.kind = "typed_parameter" ∧ ∃ m ∈ n.namedChildren, m.kind = "identifier") ∨
    ((n.kind = "default_parameter" ∨ n.kind = "typed_default_parameter") ∧
      ∃ m ∈ n.child? "name", m.kind = "identifier")

instance : DecidablePred IsDeclaration := fun _ => inferInstanceAs (Decidable (_ ∨ _))

theorem isSome_ofNode?_iff (n : Node) : (Parameter.ofNode? n).isSome ↔ IsDeclaration n := by
  unfold Parameter.ofNode? IsDeclaration
  split
  . next hkind => simp [hkind]
  . next hidentifier =>
    split
    . next hkind => simp [hkind]
    . next htyped =>
      split
      . next hkind =>
        simp only [hidentifier, htyped, hkind, false_and, false_or, true_and, Option.isSome_map]
        cases n.child? "name" with
        | none => simp
        | some m => simp [Option.filter_some]
      . next hdefault => simp [hidentifier, htyped, hdefault]

theorem declares_of_ofNode? {n : Node} {p : Parameter} (h : Parameter.ofNode? n = some p)
    : Declares n p := by
  unfold Parameter.ofNode? at h
  split at h
  . next hkind =>
    rw [Option.some.injEq] at h
    rw [← h]
    exact .plain hkind
  . split at h
    . next hkind =>
      rw [Option.map_eq_some_iff] at h
      rcases h with ⟨m, hm, rfl⟩
      exact .typed hkind hm (.ofField "type" n)
    . split at h
      . next hkind =>
        rw [Option.map_eq_some_iff] at h
        rcases h with ⟨m, hm, rfl⟩
        rw [Option.filter_eq_some_iff] at hm
        exact .default hkind hm.1 (eq_of_beq hm.2) (.ofField "type" n)
      . contradiction

theorem declares_parametersOf (n : Node)
    : List.Forall₂ Declares (n.namedChildren.filter (IsDeclaration ·)) (parametersOf n) := by
  unfold parametersOf
  apply forall₂_filter_filterMap
  . intro c
    rw [Bool.eq_iff_iff, decide_eq_true_eq]
    apply isSome_ofNode?_iff
  . intro c p
    apply declares_of_ofNode?

/--
The signature in a record is that of a definition.
-/
structure SignatureOf (n : Node) (r : Record) : Prop where
  parameters : ∀ list ∈ n.child? "parameters",
    List.Forall₂ Declares (list.namedChildren.filter (IsDeclaration ·)) r.parameters
  no_parameters : n.child? "parameters" = none → r.parameters = []
  returns : Annotation.WrittenUnder "return_type" n r.returns

theorem signatureOf_ofDefinition (name : String) (n : Node)
    : SignatureOf n (Record.ofDefinition name n) where
  parameters list hlist := by
    rw [Option.mem_def] at hlist
    unfold Record.ofDefinition
    dsimp only
    rw [hlist]
    apply declares_parametersOf
  no_parameters h := by
    unfold Record.ofDefinition
    dsimp only
    rw [h]
    rfl
  returns := .ofField "return_type" n

/--
The parameters of a list are those that its named children declare, in order. An annotation is read from the
shape of its node alone, and of a chain of two dots or more nothing is shown; so without dots in the names no
annotation has two.
-/
theorem signature_by_shapes
    : (∀ list,
        List.Forall₂ Declares (list.namedChildren.filter (IsDeclaration ·)) (parametersOf list)) ∧
      (∀ field n a, Annotation.ofField field n = a ↔ Annotation.WrittenUnder field n a) ∧
      (∀ name n, SignatureOf n (Record.ofDefinition name n)) ∧
      (∀ k field n, ∀ m ∈ n.child? field, Annotation.Chain (k + 2) m →
        Annotation.ofField field n = .unrecognised) ∧
      ∀ field n, AllNamed Annotation.DotFree n →
        (.ofField field n : Annotation).text.toList.count '.' ≤ 1 := by
  refine ⟨declares_parametersOf, Annotation.ofField_eq_iff, signatureOf_ofDefinition, ?_, ?_⟩
  . intro k field n m hm h
    apply Annotation.ofField_of_chain hm h
  . intro field n h
    apply Annotation.count_dot_text_le
    apply Annotation.holds_ofField field n h

def identifierNode (field : Option String) (name : String) : Node where
  kind := "identifier"
  field := field
  text := name

def attributeNode (field : Option String) (object : Node) (member : String) : Node where
  kind := "attribute"
  field := field
  children := [object, { kind := ".", named := false }, identifierNode (some "attribute") member]

def typeNode (field : Option String) (inner : Node) : Node where
  kind := "type"
  field := field
  children := [inner]

def chainedType : Node :=
  let object := attributeNode (some "object") (identifierNode (some "object") "a") "b"
  typeNode (some "type") (attributeNode none object "c")

/--
A parameter whose type is a chain of two dots.
-/
def chained : Node where
  kind := "typed_default_parameter"
  children := [identifierNode (some "name") "deep", chainedType]

/--
A definition with five parameters, of which one has no name of its own, and a comment among them.
-/
def signed : Node where
  kind := "function_definition"
  children := [
    identifierNode (some "name") "f",
    { kind := "parameters"
      field := some "parameters"
      children := [
        identifierNode none "self",
        { kind := ",", named := false },
        { kind := "typed_parameter"
          children := [
            identifierNode none "path",
            typeNode (some "type")
              (attributeNode none (identifierNode (some "object") "pathlib") "Path")
          ] },
        { kind := "comment" },
        { kind := "typed_parameter"
          children := [
            { kind := "list_splat_pattern", children := [identifierNode none "args"] },
            typeNode (some "type") (identifierNode none "int")
          ] },
        { kind := "default_parameter", children := [identifierNode (some "name") "n"] },
        chained
      ] },
    typeNode (some "return_type") {
      kind := "member_type"
      children := [typeNode none (identifierNode none "np"), identifierNode none "ndarray"]
    }
  ]

theorem signature_by_shapes_signed
    : let r := Record.ofDefinition "f" signed
      SignatureOf signed r ∧
        r.parameters = [
          { name := "self" },
          { name := "path", annotation := .dotted "pathlib" "Path" },
          { name := "n" },
          { name := "deep", annotation := .unrecognised }
        ] ∧
        r.returns = .dotted "np" "ndarray" ∧
        Annotation.Chain 2 chainedType ∧
        Annotation.ofField "type" chained = .unrecognised ∧
        AllNamed Annotation.DotFree signed ∧
        (.ofField "return_type" signed : Annotation).text.toList.count '.' ≤ 1 := by
  intro r
  rcases signature_by_shapes with ⟨_, _, hsignature, hchain, hdots⟩
  have h : Annotation.Chain 2 chainedType := by
    apply Annotation.Chain.wrapped rfl List.mem_cons_self
    apply Annotation.Chain.attributeOf rfl rfl
    apply Annotation.Chain.attributeOf rfl rfl
    apply Annotation.Chain.start
  have hfree : AllNamed Annotation.DotFree signed := by decide +kernel
  refine ⟨hsignature "f" signed, by decide +kernel, by decide +kernel, h, ?_, hfree, ?_⟩
  . exact hchain 0 "type" chained chainedType rfl h
  . exact hdots "return_type" signed hfree

end CallFlow.Functions
