import CallFlow.Proofs.Functions.Scope

/-!
This module contains what the table of a syntax tree is, in terms of the paths of the tree. Its names are
those of the definitions, in the order of the first definition of each (`names_extract`). Under a name
there is the record of its last definition, with the calls that count for the name (`get?_extract`).
-/

namespace CallFlow.Functions

open CallFlow.Syntax

/--
No definition of a name comes after the one at `d`.
-/
structure LastDefinition (root : Node) (name : String) (d : Path) : Prop where
  defined : definedAt? root d = some name
  last : ∀ e ∈ root.paths, definedAt? root e = some name → e = d ∨ Path.Before e d

instance (root : Node) (name : String) (d : Path) : Decidable (LastDefinition root name d) :=
  decidable_of_iff
    (definedAt? root d = some name ∧
      ∀ e ∈ root.paths, definedAt? root e = some name → e = d ∨ Path.Before e d)
    ⟨fun h => ⟨h.1, h.2⟩, fun h => ⟨h.defined, h.last⟩⟩

/--
A node counts for a name: the innermost named function in whose body it stands has this name, and it
comes after all definitions of the name.
-/
structure Counts (root : Node) (name : String) (p : Path) : Prop where
  scope : ∃ d ∈ root.paths, Innermost root d p ∧ definedAt? root d = some name
  after : ∀ d ∈ root.paths, definedAt? root d = some name → Path.Before d p

instance (root : Node) (name : String) (p : Path) : Decidable (Counts root name p) :=
  decidable_of_iff
    ((∃ d ∈ root.paths, Innermost root d p ∧ definedAt? root d = some name) ∧
      ∀ d ∈ root.paths, definedAt? root d = some name → Path.Before d p)
    ⟨fun h => ⟨h.1, h.2⟩, fun h => ⟨h.scope, h.after⟩⟩

/--
The functions called at the nodes that count for a name, in pre-order.
-/
def callsOf (root : Node) (name : String) : List String :=
  (root.paths.filter (Counts root name ·)).filterMap (calleeAt? root)

theorem LastDefinition.named {root : Node} {name : String} {d : Path}
    (h : LastDefinition root name d) : (definedAt? root d).isSome := by
  rw [h.defined, Option.isSome_some]

theorem LastDefinition.mem_paths {root : Node} {name : String} {d : Path}
    (h : LastDefinition root name d) : d ∈ root.paths := by
  apply mem_paths_of_definedAt? h.named

theorem LastDefinition.exists_at? {root : Node} {name : String} {d : Path}
    (h : LastDefinition root name d) : ∃ n, root.at? d = some n := by
  rw [← Option.isSome_iff_exists, ← Node.mem_paths_iff]
  exact h.mem_paths

theorem exists_lastDefinition {root : Node} {name : String} {d : Path}
    (h : definedAt? root d = some name) : ∃ e, LastDefinition root name e := by
  have hmem : d ∈ root.paths := by
    apply mem_paths_of_definedAt?
    rw [h, Option.isSome_some]
  rcases Path.exists_last root.pairwise_before_paths (definedAt? root · = some name) ⟨d, hmem, h⟩
    with ⟨e, _, he, hlast⟩
  exact ⟨e, he, hlast⟩

theorem filterMap_defined?_steps (root : Node)
    : (steps none root).filterMap Step.defined? = root.paths.filterMap (definedAt? root) := by
  rw [steps_eq_filterMap_paths, List.filterMap_filterMap]
  simp only [bind_defined?_stepAt?]

theorem names_extract (root : Node)
    : (extract root).names = (root.paths.filterMap (definedAt? root)).eraseDups := by
  unfold extract
  rw [Step.names_foldl_apply, Table.names_empty, List.nil_append, filterMap_defined?_steps]

theorem mem_names_extract_iff (root : Node) (name : String)
    : name ∈ (extract root).names ↔ ∃ d, definedAt? root d = some name := by
  rw [names_extract, List.mem_eraseDups, List.mem_filterMap]
  constructor
  . rintro ⟨d, _, h⟩
    exact ⟨d, h⟩
  . rintro ⟨d, h⟩
    refine ⟨d, ?_, h⟩
    apply mem_paths_of_definedAt?
    rw [h, Option.isSome_some]

theorem not_definedAt?_of_before {root : Node} {name : String} {d p : Path}
    (hd : LastDefinition root name d) (h : Path.Before d p) : definedAt? root p ≠ some name := by
  intro hp
  have hmem : p ∈ root.paths := by
    apply mem_paths_of_definedAt?
    rw [hp, Option.isSome_some]
  cases hd.last p hmem hp with
  | inl heq =>
    subst heq
    apply Path.before_irrefl p h
  | inr hbefore => apply Path.before_asymm h hbefore

theorem counts_iff_of_before {root : Node} {name : String} {d p : Path}
    (hd : LastDefinition root name d) (h : Path.Before d p)
    : Counts root name p ↔ ∃ e ∈ root.paths, Innermost root e p ∧ definedAt? root e = some name := by
  constructor
  . intro hp
    exact hp.scope
  . intro hscope
    refine ⟨hscope, ?_⟩
    intro e hmem he
    cases hd.last e hmem he with
    | inl heq =>
      rw [heq]
      exact h
    | inr hbefore => apply Path.before_trans hbefore h

/--
Nothing counts for a name that does not come after its last definition.
-/
theorem filter_counts_eq_nil {root : Node} {name : String} {d : Path} {ps : List Path}
    (hd : LastDefinition root name d) (h : ∀ p ∈ ps, ¬Path.Before d p)
    : ps.filter (Counts root name ·) = [] := by
  rw [List.filter_eq_nil_iff]
  intro p hp hcounts
  rw [decide_eq_true_eq] at hcounts
  apply h p hp
  apply hcounts.after d hd.mem_paths hd.defined

theorem callsOf_eq_filterMap {root : Node} {name : String} {d : Path} {ps qs : List Path}
    (hd : LastDefinition root name d) (hpaths : root.paths = ps ++ d :: qs)
    : callsOf root name
        =
      qs.filterMap fun p => (stepAt? none root p).bind (Step.calleeFrom? name)
      := by
  have hpairwise := root.pairwise_before_paths
  rw [hpaths] at hpairwise
  rcases Path.before_of_split hpairwise with ⟨hps, hqs⟩
  have hearlier : ∀ p ∈ ps ++ [d], ¬Path.Before d p := by
    intro p hp
    rw [List.mem_append, List.mem_singleton] at hp
    cases hp with
    | inl hp => apply Path.before_asymm (hps p hp)
    | inr hp =>
      subst hp
      apply Path.before_irrefl
  have hsplit : ps ++ d :: qs = (ps ++ [d]) ++ qs := by simp
  unfold callsOf
  rw [hpaths, hsplit, List.filter_append, filter_counts_eq_nil hd hearlier, List.nil_append,
    List.filterMap_filter]
  apply List.filterMap_congr
  intro p hp
  rw [bind_calleeFrom?_stepAt?]
  simp only [decide_eq_true_eq, counts_iff_of_before hd (hqs p hp)]

theorem stepAt?_of_definedAt? {root n : Node} {name : String} {d : Path} (scope : Option String)
    (hn : root.at? d = some n) (h : definedAt? root d = some name)
    : stepAt? scope root d = some (.define (.ofDefinition name n)) := by
  rw [definedAt?_of_at? hn] at h
  unfold stepAt? step?
  rw [hn, Option.bind_some, h]

theorem get?_extract {root n : Node} {name : String} {d : Path} (hd : LastDefinition root name d)
    (hn : root.at? d = some n)
    : (extract root).get? name
        =
      some { Record.ofDefinition name n with calls := callsOf root name }
      := by
  rcases List.append_of_mem hd.mem_paths with ⟨ps, qs, hpaths⟩
  have hpairwise := root.pairwise_before_paths
  rw [hpaths] at hpairwise
  have hqs := (Path.before_of_split hpairwise).2
  -- The definition drops what the steps before it have made of the record.
  have hupdate : ∀ r?, Step.update name r? (.define (.ofDefinition name n))
      = some (.ofDefinition name n) := by
    intro r?
    simp [Step.update, Record.ofDefinition]
  unfold extract
  rw [Step.get?_foldl_apply, steps_eq_filterMap_paths, hpaths, List.filterMap_append,
    List.filterMap_cons, stepAt?_of_definedAt? _ hn hd.defined, List.foldl_append]
  simp only [List.foldl_cons]
  rw [hupdate, Step.foldl_update_of_not_defined]
  . rw [List.filterMap_filterMap, ← callsOf_eq_filterMap hd hpaths]
    rfl
  . intro s hs heq
    rw [List.mem_filterMap] at hs
    rcases hs with ⟨p, hp, hs⟩
    apply not_definedAt?_of_before hd (hqs p hp)
    rw [← bind_defined?_stepAt?, hs, Option.bind_some, heq]

theorem exists_get?_extract {root : Node} {name : String} (h : name ∈ (extract root).names)
    : ∃ d n, LastDefinition root name d ∧ root.at? d = some n ∧
        (extract root).get? name
          = some { Record.ofDefinition name n with calls := callsOf root name } := by
  rw [mem_names_extract_iff] at h
  rcases h with ⟨e, he⟩
  rcases exists_lastDefinition he with ⟨d, hd⟩
  rcases hd.exists_at? with ⟨n, hn⟩
  refine ⟨d, n, hd, hn, ?_⟩
  apply get?_extract hd hn

def callNode (callee : String) (arguments : List Node) : Node where
  kind := "call"
  children := [
    { kind := "identifier", field := some "function", text := callee },
    { kind := "argument_list", field := some "arguments", children := arguments }
  ]

def functionNode (name : String) (parameters body : List Node) : Node where
  kind := "function_definition"
  children := [
    { kind := "identifier", field := some "name", text := name },
    { kind := "parameters", field := some "parameters", children := parameters },
    { kind := "block", field := some "body", children := body }
  ]

/--
A module that defines `f` and `g`, and `f` again in the body of `g`; a decorator and a default value call
functions too.
-/
def decorated : Node where
  kind := "module"
  children := [
    functionNode "f" [] [callNode "x" []],
    callNode "top" [],
    functionNode "g" [] [
      { kind := "decorator", children := [callNode "d" []] },
      functionNode "f"
        [{ kind := "default_parameter"
           children := [
             { kind := "identifier", field := some "name", text := "p" },
             callNode "c" []
           ] }]
        [callNode "a" [callNode "e" [], callNode "print" []], callNode "f" []],
      callNode "a" []
    ]
  ]

/--
A function has the calls that count for its name, and no others.
-/
theorem calls_eq_callsOf (root : Node) (name : String) (h : name ∈ (extract root).names)
    : ((extract root).get? name).map Record.calls = some (callsOf root name) := by
  rcases exists_get?_extract h with ⟨d, n, _, _, hget⟩
  rw [hget, Option.map_some]

theorem calls_eq_callsOf_decorated
    : "f" ∈ (extract decorated).names ∧
        ((extract decorated).get? "f").map Record.calls = some (callsOf decorated "f") ∧
        callsOf decorated "f" = ["a", "e", "f"] := by
  have h : "f" ∈ (extract decorated).names := by decide +kernel
  refine ⟨h, ?_, by decide +kernel⟩
  apply calls_eq_callsOf decorated "f" h

/--
The names come in the order of the first definition of each, and the signature and the documentation
under a name are those of its last definition.
-/
theorem names_extract_and_last_definition (root : Node)
    : (extract root).names = (root.paths.filterMap (definedAt? root)).eraseDups ∧
      ∀ name ∈ (extract root).names,
        ∃ d n r, LastDefinition root name d ∧ root.at? d = some n ∧
          (extract root).get? name = some r ∧
          r.name = name ∧
          r.parameters = ((n.child? "parameters").map parametersOf).getD [] ∧
          r.returns = Annotation.ofField "return_type" n ∧
          r.summary = ((n.child? "body").map docSummary).getD "" := by
  constructor
  . apply names_extract
  . intro name h
    rcases exists_get?_extract h with ⟨d, n, hd, hn, hget⟩
    exact ⟨d, n, _, hd, hn, hget, rfl, rfl, rfl, rfl⟩

def docstringNode (words : String) : Node where
  kind := "expression_statement"
  children := [
    { kind := "string"
      stop := { byte := words.utf8ByteSize + 2 }
      text := "\"" ++ words ++ "\""
      children := [
        { kind := "string_start", stop := { byte := 1 }, text := "\"" },
        { kind := "string_end"
          start := { byte := words.utf8ByteSize + 1 }
          stop := { byte := words.utf8ByteSize + 2 }
          text := "\"" }
      ] }
  ]

def typedParameter (name type : String) : Node where
  kind := "typed_parameter"
  children := [
    { kind := "identifier", text := name },
    { kind := "type", field := some "type", children := [{ kind := "identifier", text := type }] }
  ]

/--
A module that defines `f` with everything a record shows, and again in the body of `g` with everything
different.
-/
def redocumented : Node where
  kind := "module"
  children := [
    functionNode "f" [typedParameter "old" "str"]
      [docstringNode "Old.", callNode "x" []],
    functionNode "g" [] [
      docstringNode "Wraps f.",
      { kind := "function_definition"
        children := [
          { kind := "identifier", field := some "name", text := "f" },
          { kind := "parameters"
            field := some "parameters"
            children := [
              { kind := "identifier", text := "p" },
              typedParameter "q" "list"
            ] },
          { kind := "type"
            field := some "return_type"
            children := [{ kind := "identifier", text := "int" }] },
          { kind := "block"
            field := some "body"
            children := [docstringNode "Counts.\n\nTwice.", callNode "a" []] }
        ] }
    ]
  ]

theorem names_extract_and_last_definition_redocumented
    : (extract redocumented).names = ["f", "g"] ∧
        ∃ d n r, LastDefinition redocumented "f" d ∧ redocumented.at? d = some n ∧
          (extract redocumented).get? "f" = some r ∧
          r.name = "f" ∧
          r.parameters = [{ name := "p" }, { name := "q", annotation := .name "list" }] ∧
          ((n.child? "parameters").map parametersOf).getD [] = r.parameters ∧
          r.returns = .name "int" ∧
          Annotation.ofField "return_type" n = r.returns ∧
          r.summary = "Counts." ∧
          ((n.child? "body").map docSummary).getD "" = r.summary := by
  refine ⟨by decide +kernel, ?_⟩
  have hname : "f" ∈ (extract redocumented).names := by decide +kernel
  rcases (names_extract_and_last_definition redocumented).2 "f" hname
    with ⟨d, n, r, hd, hn, hget, hr, hparameters, hreturns, hsummary⟩
  have hrecord : (extract redocumented).get? "f" = some {
      name := "f"
      parameters := [{ name := "p" }, { name := "q", annotation := .name "list" }]
      returns := .name "int"
      summary := "Counts."
      calls := ["a"]
    } := by decide +kernel
  rw [hget] at hrecord
  injection hrecord with hrecord
  refine ⟨d, n, r, hd, hn, hget, hr, ?_, hparameters.symm, ?_, hreturns.symm, ?_, hsummary.symm⟩
  . rw [hrecord]
  . rw [hrecord]
  . rw [hrecord]

theorem steps_module {m : Node} (h : m.kind = "module")
    : steps none m = m.children.flatMap (steps none) := by
  have hname : definedName? m = none := by
    unfold definedName?
    rw [h]
    rfl
  have hscope : ∀ i, childScope none m i = none := by
    intro i
    unfold childScope
    rw [hname]
  rw [steps_eq_append]
  unfold step?
  simp only [hname, h, hscope, flatMap_zipIdx_eq_flatMap]
  rfl

/--
The table of a module comes from the tables of any two parts of it, as if the functions of the second
part were defined anew after those of the first.
-/
theorem extract_append (m a b : Node) (hm : m.kind = "module") (ha : a.kind = "module")
    (hb : b.kind = "module") (h : m.children = a.children ++ b.children)
    : extract m = Table.ofList ((extract a).records ++ (extract b).records) := by
  have hcallers : Step.CallersDefined Table.empty.names (steps none b) := by
    apply callersDefined_steps
    simp
  have hempty : Table.empty.records.foldl Table.insert (extract a) = extract a := rfl
  have hsecond := Step.foldl_apply_eq_foldl_insert (extract a) Table.empty (steps none b) hcallers
  have hfirst : (extract a).records.foldl Table.insert Table.empty = extract a :=
    Table.ofList_records (extract a)
  unfold Table.ofList
  rw [List.foldl_append, hfirst]
  rw [hempty] at hsecond
  rw [extract, steps_module hm, h, List.flatMap_append, List.foldl_append, ← steps_module ha,
    ← steps_module hb]
  apply hsecond

def firstPart : Node where
  kind := "module"
  children := [functionNode "f" [] [callNode "a" []], functionNode "g" [] [callNode "f" []]]

/--
Redefines the first function of `firstPart`.
-/
def secondPart : Node where
  kind := "module"
  children := [functionNode "f" [] [callNode "b" []]]

theorem extract_append_parts
    : extract { kind := "module", children := firstPart.children ++ secondPart.children }
          = Table.ofList ((extract firstPart).records ++ (extract secondPart).records) ∧
        (extract firstPart).records = [{ name := "f", calls := ["a"] }, { name := "g", calls := ["f"] }] ∧
        (extract secondPart).records = [{ name := "f", calls := ["b"] }] := by
  refine ⟨?_, by decide +kernel, by decide +kernel⟩
  exact extract_append _ firstPart secondPart rfl rfl rfl rfl

end CallFlow.Functions
