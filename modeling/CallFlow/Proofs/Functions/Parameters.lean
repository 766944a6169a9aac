import CallFlow.Proofs.Functions.Names

/-!
This module contains what the text of a parameter list says. Among bare names the text of a parameter ends at
the comma behind it (`alike_of_text_append_eq`), so the parameters are known from the text but for one thing:
whether an annotation that is not shown was written (`renderParameters_eq_iff`).
-/

namespace CallFlow.Functions

open CallFlow.Text

/--
Neither white space nor one of the characters that stand around names in a parameter list.
-/
def isBare (c : Char) : Bool := !isBlank c && c != ',' && c != '(' && c != ')' && c != '.'

structure BareName (s : String) : Prop where
  nonempty : s ≠ ""
  bare : ∀ c ∈ s.toList, isBare c = true

instance (s : String) : Decidable (BareName s) :=
  decidable_of_iff (s ≠ "" ∧ s.toList.all isBare = true)
    ⟨fun h => ⟨h.1, List.all_eq_true.mp h.2⟩, fun h => ⟨h.nonempty, List.all_eq_true.mpr h.bare⟩⟩

theorem bareName_append_inj {s s' : String} {c c' : Char} {cs cs' : List Char} (hs : BareName s)
    (hs' : BareName s') (hc : isBare c = false) (hc' : isBare c' = false)
    (h : s.toList ++ c :: cs = s'.toList ++ c' :: cs') : s = s' ∧ c = c' ∧ cs = cs' := by
  rcases append_cons_inj hs.bare hs'.bare (by simp [hc]) (by simp [hc']) h with ⟨hname, hchar, hrest⟩
  exact ⟨String.toList_inj.mp hname, hchar, hrest⟩

namespace Annotation

/--
Two annotations are the same, except that one may not have been written and the other not recognised.
-/
inductive Alike : Annotation → Annotation → Prop where
  | same (a : Annotation) : Alike a a
  | absent_unrecognised : Alike absent unrecognised
  | unrecognised_absent : Alike unrecognised absent

theorem alike_of_not_rendered {a b : Annotation} (ha : a.isRendered = false)
    (hb : b.isRendered = false) : a.Alike b := by
  cases a with
  | name _ => contradiction
  | dotted _ _ => contradiction
  | absent =>
    cases b with
    | name _ => contradiction
    | dotted _ _ => contradiction
    | absent => exact .same absent
    | unrecognised => exact .absent_unrecognised
  | unrecognised =>
    cases b with
    | name _ => contradiction
    | dotted _ _ => contradiction
    | absent => exact .unrecognised_absent
    | unrecognised => exact .same unrecognised

/--
The bracket behind an annotation tells where its text ends, and the dot in it whether it has two names.
-/
theorem text_append_inj {a b : Annotation} {cs cs' : List Char} (ha : a.Holds BareName)
    (hb : b.Holds BareName) (hra : a.isRendered = true) (hrb : b.isRendered = true)
    (h : a.text.toList ++ ')' :: cs = b.text.toList ++ ')' :: cs') : a = b ∧ cs = cs' := by
  have hbracket : isBare ')' = false := by decide
  have hdot : isBare '.' = false := by decide
  have hdotted : ∀ object member cs, (dotted object member).text.toList ++ ')' :: cs
      = object.toList ++ '.' :: (member.toList ++ ')' :: cs) := by
    intro object member cs
    simp [text]
  cases a with
  | absent => contradiction
  | unrecognised => contradiction
  | name i =>
    cases b with
    | absent => contradiction
    | unrecognised => contradiction
    | name j =>
      rcases bareName_append_inj ha hb hbracket hbracket h with ⟨rfl, _, hrest⟩
      exact ⟨rfl, hrest⟩
    | dotted o m =>
      rw [hdotted] at h
      rcases bareName_append_inj ha hb.1 hbracket hdot h with ⟨_, hchar, _⟩
      contradiction
  | dotted o m =>
    rw [hdotted] at h
    cases b with
    | absent => contradiction
    | unrecognised => contradiction
    | name j =>
      rcases bareName_append_inj ha.1 hb hdot hbracket h with ⟨_, hchar, _⟩
      contradiction
    | dotted o' m' =>
      rw [hdotted] at h
      rcases bareName_append_inj ha.1 hb.1 hdot hdot h with ⟨rfl, _, h⟩
      rcases bareName_append_inj ha.2 hb.2 hbracket hbracket h with ⟨rfl, _, hrest⟩
      exact ⟨rfl, hrest⟩

/--
What follows a name: its annotation in brackets, if that is shown, and then some characters.
-/
def before (a : Annotation) (cs : List Char) : List Char :=
  if a.isRendered then ' ' :: '(' :: (a.text.toList ++ ')' :: cs) else cs

theorem exists_before_eq_cons (a : Annotation) (cs : List Char)
    : ∃ c rest, isBare c = false ∧ a.before (',' :: cs) = c :: rest := by
  unfold before
  split
  . exact ⟨' ', _, by decide, rfl⟩
  . exact ⟨',', cs, by decide, rfl⟩

theorem alike_of_before_eq {a b : Annotation} {cs cs' : List Char} (ha : a.Holds BareName)
    (hb : b.Holds BareName) (h : a.before (',' :: cs) = b.before (',' :: cs'))
    : a.Alike b ∧ cs = cs' := by
  unfold before at h
  split at h
  . next hra =>
    split at h
    . next hrb =>
      injection h with _ h
      injection h with _ h
      rcases text_append_inj ha hb hra hrb h with ⟨rfl, hrest⟩
      injection hrest with _ hrest
      exact ⟨.same a, hrest⟩
    . injection h with hchar _
      contradiction
  . next hra =>
    split at h
    . injection h with hchar _
      contradiction
    . next hrb =>
      injection h with _ hrest
      rw [Bool.not_eq_true] at hra hrb
      exact ⟨alike_of_not_rendered hra hrb, hrest⟩

theorem Alike.before_eq {a b : Annotation} (h : a.Alike b) (cs : List Char)
    : a.before cs = b.before cs := by
  cases h with
  | same _ => rfl
  | absent_unrecognised => rfl
  | unrecognised_absent => rfl

end Annotation

namespace Parameter

structure Alike (p q : Parameter) : Prop where
  name : p.name = q.name
  annotation : p.annotation.Alike q.annotation

theorem toList_text_append (p : Parameter) (cs : List Char)
    : p.text.toList ++ cs = p.name.toList ++ p.annotation.before cs := by
  unfold text Annotation.before
  split
  . simp
  . rfl

theorem alike_of_text_append_eq {p q : Parameter} {cs cs' : List Char} (hp : p.Holds BareName)
    (hq : q.Holds BareName) (h : p.text.toList ++ ',' :: cs = q.text.toList ++ ',' :: cs')
    : p.Alike q ∧ cs = cs' := by
  rw [toList_text_append, toList_text_append] at h
  rcases p.annotation.exists_before_eq_cons cs with ⟨c, rest, hc, heq⟩
  rcases q.annotation.exists_before_eq_cons cs' with ⟨c', rest', hc', heq'⟩
  -- The names end before the first character that is not bare, and what is left are the annotations.
  have hname : p.name = q.name := by
    rw [heq, heq'] at h
    exact (bareName_append_inj hp.name hq.name hc hc' h).1
  rw [hname] at h
  have hannotation := List.append_cancel_left h
  rcases Annotation.alike_of_before_eq hp.annotation hq.annotation hannotation with ⟨halike, hrest⟩
  exact ⟨⟨hname, halike⟩, hrest⟩

theorem Alike.text_eq {p q : Parameter} (h : p.Alike q) : p.text = q.text := by
  have hp := p.toList_text_append []
  have hq := q.toList_text_append []
  rw [List.append_nil] at hp hq
  rw [← String.toList_inj, hp, hq, h.name, h.annotation.before_eq]

end Parameter

/--
Parameters with a comma behind each of them, also the last.
-/
def withCommas (ps : List Parameter) : List Char := ps.flatMap fun p => p.text.toList ++ [',', ' ']

theorem withCommas_cons (p : Parameter) (ps : List Parameter)
    : withCommas (p :: ps) = p.text.toList ++ ',' :: ' ' :: withCommas ps := by
  unfold withCommas
  simp

theorem toList_renderParameters_append (p : Parameter) (ps : List Parameter)
    : (renderParameters (p :: ps)).toList ++ [',', ' '] = withCommas (p :: ps) := by
  -- Only the last parameter has no comma behind it in the text.
  induction ps generalizing p with
  | nil => simp [renderParameters, withCommas]
  | cons q ps ih =>
    rw [withCommas_cons, ← ih q]
    unfold renderParameters
    simp [String.toList_intercalate]

theorem alike_of_withCommas_eq {ps qs : List Parameter} (hp : ∀ p ∈ ps, p.Holds BareName)
    (hq : ∀ q ∈ qs, q.Holds BareName) (h : withCommas ps = withCommas qs)
    : List.Forall₂ Parameter.Alike ps qs := by
  induction ps generalizing qs with
  | nil =>
    cases qs with
    | nil => exact .nil
    | cons q qs => simp [withCommas] at h
  | cons p ps ih =>
    cases qs with
    | nil => simp [withCommas] at h
    | cons q qs =>
      rw [List.forall_mem_cons] at hp hq
      rw [withCommas_cons, withCommas_cons] at h
      rcases Parameter.alike_of_text_append_eq hp.1 hq.1 h with ⟨halike, hrest⟩
      injection hrest with _ hrest
      exact .cons halike (ih hp.2 hq.2 hrest)

theorem renderParameters_nil : renderParameters [] = "" := by
  simp [renderParameters]

theorem renderParameters_cons_ne_empty (p : Parameter) (ps : List Parameter) (hp : BareName p.name)
    : renderParameters (p :: ps) ≠ "" := by
  intro h
  have htext := toList_renderParameters_append p ps
  rw [h, withCommas_cons, Parameter.toList_text_append] at htext
  cases hname : p.name.toList with
  | nil =>
    rw [String.toList_eq_nil_iff] at hname
    exact hp.nonempty hname
  | cons c cs =>
    have hc : isBare c = true := by
      apply hp.bare
      rw [hname]
      apply List.mem_cons_self
    rw [hname] at htext
    injection htext with heq _
    rw [← heq] at hc
    contradiction

theorem renderParameters_eq_of_alike {ps qs : List Parameter}
    (h : List.Forall₂ Parameter.Alike ps qs) : renderParameters ps = renderParameters qs := by
  have htexts : ps.map Parameter.text = qs.map Parameter.text := by
    induction h with
    | nil => rfl
    | cons h _ ih => rw [List.map_cons, List.map_cons, h.text_eq, ih]
  unfold renderParameters
  rw [htexts]

/--
Two parameter lists with bare names have the same text just if they have equally many parameters with the same
names and, one by one, the same annotations, where one that was not recognised counts as not written.
-/
theorem renderParameters_eq_iff {ps qs : List Parameter} (hp : ∀ p ∈ ps, p.Holds BareName)
    (hq : ∀ q ∈ qs, q.Holds BareName)
    : renderParameters ps = renderParameters qs ↔ List.Forall₂ Parameter.Alike ps qs := by
  constructor
  . intro h
    cases ps with
    | nil =>
      cases qs with
      | nil => exact .nil
      | cons q qs =>
        rw [List.forall_mem_cons] at hq
        rw [renderParameters_nil] at h
        exact absurd h.symm (renderParameters_cons_ne_empty q qs hq.1.name)
    | cons p ps =>
      cases qs with
      | nil =>
        rw [List.forall_mem_cons] at hp
        rw [renderParameters_nil] at h
        exact absurd h (renderParameters_cons_ne_empty p ps hp.1.name)
      | cons q qs =>
        apply alike_of_withCommas_eq hp hq
        rw [← toList_renderParameters_append, ← toList_renderParameters_append, h]
  . exact renderParameters_eq_of_alike

/--
The type of the second parameter is not recognised, and the third has two names.
-/
def annotated : List Parameter := [
  { name := "n", annotation := .name "int" },
  { name := "items", annotation := .unrecognised },
  { name := "path", annotation := .dotted "pathlib" "Path" }
]

/--
Without a type for the second parameter.
-/
def lessAnnotated : List Parameter := [
  { name := "n", annotation := .name "int" },
  { name := "items" },
  { name := "path", annotation := .dotted "pathlib" "Path" }
]

theorem renderParameters_eq_iff_annotated
    : (∀ p ∈ annotated, p.Holds BareName) ∧
        (∀ p ∈ lessAnnotated, p.Holds BareName) ∧
        renderParameters annotated = "n (int), items, path (pathlib.Path)" ∧
        renderParameters lessAnnotated = "n (int), items, path (pathlib.Path)" ∧
        List.Forall₂ Parameter.Alike annotated lessAnnotated := by
  have hp : ∀ p ∈ annotated, p.Holds BareName := by decide +kernel
  have hq : ∀ p ∈ lessAnnotated, p.Holds BareName := by decide +kernel
  have htext : renderParameters annotated = "n (int), items, path (pathlib.Path)" := by
    decide +kernel
  have htext' : renderParameters lessAnnotated = "n (int), items, path (pathlib.Path)" := by
    decide +kernel
  refine ⟨hp, hq, htext, htext', ?_⟩
  rw [← renderParameters_eq_iff hp hq, htext, htext']

end CallFlow.Functions
