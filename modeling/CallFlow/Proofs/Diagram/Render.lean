import CallFlow.Proofs.Diagram.Build
import CallFlow.Proofs.Functions.Names

/-!
This module contains that the text of a diagram says what its lines are. Lines with plain names can be
read back from their text (`eq_of_render_eq`), and the diagram of a tree with plain identifiers has no
others (`legible_of_mem_block`).
-/

namespace CallFlow.Diagram

open CallFlow.Functions CallFlow.Syntax CallFlow.Text

namespace Line

/--
The names in a line are plain, and its text does not go beyond it.
-/
def Legible : Line → Prop
  | call caller callee parameters =>
    PlainName caller ∧ PlainName callee ∧ '\n' ∉ parameters.toList
  | reply caller callee annotation =>
    PlainName caller ∧ PlainName callee ∧ '\n' ∉ annotation.toList
  | note participant text => PlainName participant ∧ '\n' ∉ text.toList

instance (l : Line) : Decidable l.Legible := by
  unfold Legible
  cases l <;> infer_instance

/--
A reply or a note has something to say, a note on one line without tabs.
-/
def Filled : Line → Prop
  | call _ _ _ => True
  | reply _ _ annotation => annotation ≠ ""
  | note _ text => text ≠ "" ∧ OneLine text.toList

/--
The plain characters that the text of a line begins with.
-/
def lead : Line → List Char
  | call caller _ _ => caller.toList
  | reply caller _ _ => caller.toList
  | note _ _ => "note".toList

/--
The first character that is not plain; it tells the kind of the line.
-/
def mark : Line → Char
  | call _ _ _ => '-'
  | reply _ _ _ => '<'
  | note _ _ => ' '

def rest : Line → List Char
  | call _ callee parameters => '>' :: (callee.toList ++ ':' :: ' ' :: parameters.toList)
  | reply _ callee annotation => '-' :: '-' :: (callee.toList ++ ':' :: ' ' :: annotation.toList)
  | note participant text => "over ".toList ++ (participant.toList ++ ':' :: text.toList)

theorem toList_text (l : Line) : l.text.toList = l.lead ++ l.mark :: l.rest := by
  unfold text
  cases l <;> simp [pieces, lead, mark, rest]

theorem isPlain_of_mem_lead {l : Line} (h : l.Legible) : ∀ c ∈ l.lead, isPlain c = true := by
  cases l with
  | call caller callee parameters => exact h.1.plain
  | reply caller callee annotation => exact h.1.plain
  | note participant text =>
    have : "note".toList.all isPlain = true := by decide
    exact List.all_eq_true.mp this

theorem isPlain_mark (l : Line) : isPlain l.mark = false := by
  cases l <;> rfl

theorem newlineFree_text_call (caller callee parameters : String)
    : NewlineFree (call caller callee parameters).text ↔
        NewlineFree caller ∧ NewlineFree callee ∧ NewlineFree parameters := by
  unfold NewlineFree text
  simp [pieces]

theorem newlineFree_text_reply (caller callee annotation : String)
    : NewlineFree (reply caller callee annotation).text ↔
        NewlineFree caller ∧ NewlineFree callee ∧ NewlineFree annotation := by
  unfold NewlineFree text
  simp [pieces]

theorem newlineFree_text_note (participant text : String)
    : NewlineFree (note participant text).text ↔ NewlineFree participant ∧ NewlineFree text := by
  unfold NewlineFree Line.text
  simp [pieces]

theorem Legible.newlineFree_text {l : Line} (h : l.Legible) : NewlineFree l.text := by
  cases l with
  | call caller callee parameters =>
    rw [newlineFree_text_call]
    exact ⟨h.1.newlineFree, h.2.1.newlineFree, h.2.2⟩
  | reply caller callee annotation =>
    rw [newlineFree_text_reply]
    exact ⟨h.1.newlineFree, h.2.1.newlineFree, h.2.2⟩
  | note participant text =>
    rw [newlineFree_text_note]
    exact ⟨h.1.newlineFree, h.2⟩

end Line

theorem name_colon_inj {s s' : String} {cs cs' : List Char} (hs : PlainName s) (hs' : PlainName s')
    (h : s.toList ++ ':' :: cs = s'.toList ++ ':' :: cs') : s = s' ∧ cs = cs' := by
  have hcolon : ¬isPlain ':' = true := by decide
  rcases append_cons_inj hs.plain hs'.plain hcolon hcolon h with ⟨hname, _, hcs⟩
  exact ⟨String.toList_inj.mp hname, hcs⟩

theorem eq_of_text_eq {l l' : Line} (h : l.Legible) (h' : l'.Legible) (heq : l.text = l'.text)
    : l = l' := by
  rw [← String.toList_inj, Line.toList_text, Line.toList_text] at heq
  have hstop : ∀ l : Line, ¬isPlain l.mark = true := by
    intro l
    rw [l.isPlain_mark]
    decide
  rcases append_cons_inj (Line.isPlain_of_mem_lead h) (Line.isPlain_of_mem_lead h') (hstop l) (hstop l')
    heq with ⟨hlead, hmark, hrest⟩
  -- Lines of two kinds have different marks.
  cases l with
  | call caller callee parameters =>
    cases l' with
    | call caller' callee' parameters' =>
      injection hrest with _ hrest
      rcases name_colon_inj h.2.1 h'.2.1 hrest with ⟨hcallee, htext⟩
      injection htext with _ htext
      rw [String.toList_inj.mp hlead, hcallee, String.toList_inj.mp htext]
    | reply caller' callee' annotation' => simp [Line.mark] at hmark
    | note participant' text' => simp [Line.mark] at hmark
  | reply caller callee annotation =>
    cases l' with
    | call caller' callee' parameters' => simp [Line.mark] at hmark
    | reply caller' callee' annotation' =>
      injection hrest with _ hrest
      injection hrest with _ hrest
      rcases name_colon_inj h.2.1 h'.2.1 hrest with ⟨hcallee, htext⟩
      injection htext with _ htext
      rw [String.toList_inj.mp hlead, hcallee, String.toList_inj.mp htext]
    | note participant' text' => simp [Line.mark] at hmark
  | note participant text =>
    cases l' with
    | call caller' callee' parameters' => simp [Line.mark] at hmark
    | reply caller' callee' annotation' => simp [Line.mark] at hmark
    | note participant' text' =>
      have hrest := List.append_cancel_left hrest
      rcases name_colon_inj h.1 h'.1 hrest with ⟨hparticipant, htext⟩
      rw [hparticipant, String.toList_inj.mp htext]

theorem toList_render_cons (l : Line) (ls : List Line)
    : (render (l :: ls)).toList = l.text.toList ++ '\n' :: (render ls).toList := by
  unfold render
  simp

theorem eq_of_render_eq {ls ls' : List Line} (h : ∀ l ∈ ls, l.Legible) (h' : ∀ l ∈ ls', l.Legible)
    (heq : render ls = render ls') : ls = ls' := by
  induction ls generalizing ls' with
  | nil =>
    cases ls' with
    | nil => rfl
    | cons l' ls' =>
      rw [← String.toList_inj, toList_render_cons] at heq
      simp [render] at heq
  | cons l ls ih =>
    cases ls' with
    | nil =>
      rw [← String.toList_inj, toList_render_cons] at heq
      simp [render] at heq
    | cons l' ls' =>
      rw [List.forall_mem_cons] at h h'
      rw [← String.toList_inj, toList_render_cons, toList_render_cons] at heq
      have hne : ∀ l : Line, l.Legible → ∀ c ∈ l.text.toList, c ≠ '\n' := by
        intro l hl c hc
        rintro rfl
        exact hl.newlineFree_text hc
      rcases append_cons_inj (hne l h.1) (hne l' h'.1) (by simp) (by simp) heq with ⟨htext, _, hrest⟩
      rw [eq_of_text_eq h.1 h'.1 (String.toList_inj.mp htext),
        ih h.2 h'.2 (String.toList_inj.mp hrest)]

theorem count_newline_render {ls : List Line} (h : ∀ l ∈ ls, NewlineFree l.text)
    : (render ls).toList.count '\n' = ls.length := by
  induction ls with
  | nil => rfl
  | cons l ls ih =>
    rw [List.forall_mem_cons] at h
    rw [toList_render_cons, List.count_append, List.count_cons_self, ih h.2,
      List.count_eq_zero_of_not_mem h.1, List.length_cons, Nat.zero_add]

theorem newlineFree_text_of_holds {a : Annotation} (h : a.Holds NewlineFree) : NewlineFree a.text := by
  cases a with
  | absent => decide
  | name identifier => exact h
  | dotted object member =>
    rcases h with ⟨hobject, hmember⟩
    unfold NewlineFree Annotation.text at *
    simp_all
  | unrecognised => decide

theorem text_ne_empty_of_isRendered {a : Annotation} (h : a.Holds PlainName) (hr : a.isRendered = true)
    : a.text ≠ "" := by
  cases a with
  | absent => contradiction
  | name identifier => exact h.nonempty
  | dotted object member =>
    unfold Annotation.text
    simp
  | unrecognised => contradiction

theorem newlineFree_renderParameters {ps : List Parameter} (h : ∀ p ∈ ps, p.Holds NewlineFree)
    : NewlineFree (renderParameters ps) := by
  unfold NewlineFree renderParameters
  rw [String.toList_intercalate]
  intro hmem
  cases mem_intercalate hmem with
  | inl hsep => simp at hsep
  | inr hmem =>
    rcases hmem with ⟨cs, hcs, hmem⟩
    simp only [List.mem_map] at hcs
    rcases hcs with ⟨s, ⟨p, hp, rfl⟩, rfl⟩
    have hp := h p hp
    have hname := hp.name
    have hannotation := newlineFree_text_of_holds hp.annotation
    unfold Parameter.text at hmem
    unfold NewlineFree at hname hannotation
    split at hmem
    . simp_all
    . contradiction

/--
The lines that the block of a call may have.
-/
inductive BlockLine (t : Table) (caller callee : String) : Line → Prop where
  | unknown : BlockLine t caller callee (.call caller callee "")
  | call {r : Record} (hr : r ∈ t.records)
      : BlockLine t caller callee (.call caller callee (renderParameters r.parameters))
  | reply {r : Record} (hr : r ∈ t.records) (h : r.returns.isRendered = true)
      : BlockLine t caller callee (.reply caller callee r.returns.text)
  | note {r : Record} (hr : r ∈ t.records) (h : r.summary ≠ "")
      : BlockLine t caller callee (.note callee r.summary)

theorem blockLine_of_mem_block {t : Table} {caller callee : String} {l : Line}
    (h : l ∈ block t caller callee) : BlockLine t caller callee l := by
  unfold block at h
  split at h
  . rw [List.mem_singleton] at h
    subst h
    exact .unknown
  . next r hr =>
    have hr := Table.mem_records_of_get? hr
    rw [List.mem_cons, List.mem_append] at h
    rcases h with rfl | h | h
    . exact .call hr
    . split at h
      . next hrendered =>
        rw [List.mem_singleton] at h
        subst h
        exact .reply hr hrendered
      . contradiction
    . split at h
      . contradiction
      . next hsummary =>
        rw [List.mem_singleton] at h
        subst h
        exact .note hr hsummary

theorem legible_of_mem_block {t : Table}
    (ht : ∀ r ∈ t.records, r.Holds PlainName ∧ OneLine r.summary.toList) {caller callee : String}
    (hcaller : PlainName caller) (hcallee : PlainName callee) {l : Line}
    (h : l ∈ block t caller callee) : l.Legible ∧ l.Filled := by
  cases blockLine_of_mem_block h with
  | unknown => exact ⟨⟨hcaller, hcallee, by decide⟩, trivial⟩
  | call hr =>
    refine ⟨⟨hcaller, hcallee, newlineFree_renderParameters ?_⟩, trivial⟩
    intro p hp
    apply ((ht _ hr).1.parameters p hp).imp fun _ hs => hs.newlineFree
  | reply hr hrendered =>
    have hreturns := (ht _ hr).1.returns
    refine ⟨⟨hcaller, hcallee, newlineFree_text_of_holds ?_⟩,
      text_ne_empty_of_isRendered hreturns hrendered⟩
    apply hreturns.imp fun _ hs => hs.newlineFree
  | note hr hsummary =>
    have honeLine := (ht _ hr).2
    exact ⟨⟨hcallee, honeLine.newline_not_mem⟩, hsummary, honeLine⟩

theorem newlineFree_of_mem_block {t : Table}
    (ht : ∀ r ∈ t.records, r.Holds NewlineFree ∧ OneLine r.summary.toList) {caller callee : String}
    (hcaller : NewlineFree caller) (hcallee : NewlineFree callee) {l : Line}
    (h : l ∈ block t caller callee) : NewlineFree l.text := by
  cases blockLine_of_mem_block h with
  | unknown =>
    rw [Line.newlineFree_text_call]
    exact ⟨hcaller, hcallee, by decide⟩
  | call hr =>
    rw [Line.newlineFree_text_call]
    exact ⟨hcaller, hcallee, newlineFree_renderParameters (ht _ hr).1.parameters⟩
  | reply hr _ =>
    rw [Line.newlineFree_text_reply]
    exact ⟨hcaller, hcallee, newlineFree_text_of_holds (ht _ hr).1.returns⟩
  | note hr _ =>
    rw [Line.newlineFree_text_note]
    exact ⟨hcallee, (ht _ hr).2.newline_not_mem⟩

theorem exists_of_mem_buildFrom {t : Table} {policy : Policy} {main : Record} (hmain : main ∈ t.records)
    {l : Line} (h : l ∈ (buildFrom t policy main).lines)
    : ∃ r ∈ t.records, ∃ c ∈ r.calls, l ∈ block t r.name c := by
  unfold buildFrom otherBlocks blocks at h
  rw [List.mem_append, List.mem_flatMap, List.mem_flatMap] at h
  rcases h with ⟨c, hc, hl⟩ | ⟨r, hr, hl⟩
  . refine ⟨main, hmain, c, ?_, hl⟩
    rw [(listed_fst_eq_take t policy main.calls).1] at hc
    apply List.mem_of_mem_take hc
  . rw [List.mem_flatMap] at hl
    rcases hl with ⟨c, hc, hl⟩
    exact ⟨r, List.mem_of_mem_filter hr, c, hc, hl⟩

/--
The text of the diagram of a tree has a line feed for each line if there is none in an identifier. Names
need not be plain for this, and docstrings do not matter.
-/
theorem count_newline_render_build {root : Node} (hroot : AllNamed NewlineFree root) {policy : Policy}
    {d : Diagram} (hd : build (extract root) policy = .ok d)
    : (render d.lines).toList.count '\n' = d.lines.length := by
  apply count_newline_render
  intro l hl
  have ht : ∀ r ∈ (extract root).records, r.Holds NewlineFree ∧ OneLine r.summary.toList := by
    intro r hr
    apply holds_of_mem_extract hroot hr
  rcases exists_of_build hd with ⟨main, hmain, rfl⟩
  rcases exists_of_mem_buildFrom hmain hl with ⟨r, hr, c, hc, hl⟩
  apply newlineFree_of_mem_block ht (ht r hr).1.name ((ht r hr).1.calls c hc) hl

/--
Lines that are legible are known from their text, which has a line feed for each of them. Those of a tree
with plain identifiers are legible, and no reply and no note among them is empty.
-/
theorem render_unambiguous
    : (∀ ls ls', (∀ l ∈ ls, l.Legible) → (∀ l ∈ ls', l.Legible) → render ls = render ls' → ls = ls') ∧
      (∀ ls, (∀ l ∈ ls, l.Legible) → (render ls).toList.count '\n' = ls.length) ∧
      ∀ root, AllWellNamed root →
        ∀ policy d, build (extract root) policy = .ok d → ∀ l ∈ d.lines, l.Legible ∧ l.Filled := by
  refine ⟨?_, ?_, ?_⟩
  . intro ls ls' h h' heq
    apply eq_of_render_eq h h' heq
  . intro ls h
    apply count_newline_render
    intro l hl
    apply (h l hl).newlineFree_text
  . intro root hroot policy d hd l hl
    have ht : ∀ r ∈ (extract root).records, r.Holds PlainName ∧ OneLine r.summary.toList := by
      intro r hr
      apply holds_of_mem_extract hroot.allNamed hr
    rcases exists_of_build hd with ⟨main, hmain, rfl⟩
    rcases exists_of_mem_buildFrom hmain hl with ⟨r, hr, c, hc, hl⟩
    apply legible_of_mem_block ht (ht r hr).1.name ((ht r hr).1.calls c hc) hl

/--
A function whose docstring has escape sequences for a tab and for line boundaries, and its caller.
-/
def documented : Node where
  kind := "module"
  children := [
    functionNode "load" [{ kind := "identifier", text := "path" }] [
      { kind := "expression_statement"
        children := [
          { kind := "string"
            text := "'a\\tb\\x0b->c\\n'"
            children := [
              { kind := "string_start", text := "'", stop := { byte := 1 } },
              { kind := "string_end", text := "'", start := { byte := 14 }, stop := { byte := 15 } }
            ] }
        ] }
    ],
    functionNode "main" [] [callNode "load" []]
  ]

theorem render_unambiguous_documented
    : AllWellNamed documented ∧
        ∃ d,
          build (extract documented) .truncate = .ok d ∧
          d.lines = [.call "main" "load" "path", .note "load" "a       b"] ∧
          (∀ l ∈ d.lines, l.Legible ∧ l.Filled) ∧
          (render d.lines).toList.count '\n' = 2 ∧
          ∀ ls, (∀ l ∈ ls, l.Legible) → render d.lines = render ls → d.lines = ls := by
  have h : AllWellNamed documented := by decide +kernel
  let d : Diagram := {
    main := "main"
    lines := [.call "main" "load" "path", .note "load" "a       b"]
    phase := .complete
  }
  have hd : build (extract documented) .truncate = .ok d := by decide +kernel
  rcases render_unambiguous with ⟨hinj, hcount, hlegible⟩
  have hlines := hlegible documented h .truncate d hd
  have hall : ∀ l ∈ d.lines, l.Legible := by
    intro l hl
    exact (hlines l hl).1
  refine ⟨h, d, hd, rfl, hlines, hcount d.lines hall, ?_⟩
  intro ls hls
  apply hinj d.lines ls hall hls

end CallFlow.Diagram
