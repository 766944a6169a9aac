import CallFlow.Files.Tree
import CallFlow.Proofs.Text.Line

/-!
This module contains what making and writing a file does to a tree of files: no entry changes but that of
the file (`entry?_of_create`, `entry?_of_write`), which then has the bytes that are written
(`entry?_of_create_of_write`), whether in one piece or in several (`write_append`). A path with more
characters at its end leads to another file (`ne_of_locateNew_append`).
-/

namespace CallFlow.Files.Tree

open CallFlow.Text

theorem lookup_setIn_of_ne {path q : Path} (h : q ≠ path) (e : Entry) (es : List (Path × Entry))
    : (setIn path e es).lookup q = es.lookup q := by
  have hbeq : (q == path) = false := by simpa using h
  induction es with
  | nil =>
    unfold setIn
    rw [List.lookup_cons, hbeq]
  | cons pe es ih =>
    rcases pe with ⟨p, d⟩
    unfold setIn
    split
    . next hp =>
      subst hp
      rw [List.lookup_cons, List.lookup_cons, hbeq]
    . rw [List.lookup_cons, List.lookup_cons, ih]

theorem entry?_set_of_ne {path q : Path} (h : q ≠ path) (t : Tree) (e : Entry)
    : entry? (t.set path e) q = t.entry? q := by
  unfold entry? set
  rw [lookup_setIn_of_ne h]

theorem lookup_setIn_self (path : Path) (e : Entry) (es : List (Path × Entry))
    : (setIn path e es).lookup path = some e := by
  induction es with
  | nil =>
    unfold setIn
    rw [List.lookup_cons, beq_self_eq_true]
  | cons pe es ih =>
    rcases pe with ⟨p, d⟩
    unfold setIn
    split
    . next hp =>
      subst hp
      rw [List.lookup_cons, beq_self_eq_true]
    . next hp =>
      have hbeq : (path == p) = false := by simpa using Ne.symm hp
      rw [List.lookup_cons, hbeq, ih]

theorem entry?_set_self {t : Tree} {path : Path} (h : t.entry? path ≠ some .directory) (e : Entry)
    : entry? (t.set path e) path = some e := by
  unfold entry? at h
  unfold entry? set
  split at h
  . contradiction
  . next hprefix => rw [if_neg hprefix, lookup_setIn_self]

theorem entry?_of_create {t t' : Tree} {path : String} {p : Path} (h : t.create path = .ok (p, t'))
    : t.locateNew path = .ok p ∧ ∀ q, q ≠ p → t'.entry? q = t.entry? q := by
  unfold create at h
  cases hp : t.locateNew path with
  | error e => simp [hp, bind, Except.bind] at h
  | ok p' =>
    simp only [hp, bind, Except.bind] at h
    split at h
    . contradiction
    . simp only [Except.ok.injEq, Prod.mk.injEq] at h
      rcases h with ⟨rfl, rfl⟩
      exact ⟨rfl, fun q _ => rfl⟩
    . simp only [Except.ok.injEq, Prod.mk.injEq] at h
      rcases h with ⟨rfl, rfl⟩
      refine ⟨rfl, ?_⟩
      intro q hq
      apply entry?_set_of_ne hq

theorem entry?_of_write {t t' : Tree} {p : Path} {bytes : ByteArray} (h : t.write p bytes = .ok t')
    : ∀ q, q ≠ p → t'.entry? q = t.entry? q := by
  intro q hq
  unfold write at h
  split at h
  . contradiction
  . contradiction
  . split at h
    . injection h with h
      rw [h]
    . contradiction
  . injection h with h
    rw [← h]
    apply entry?_set_of_ne hq

/--
A file that is made and written has the bytes that are written, whatever there was before. A device that
is always full is left out.
-/
theorem entry?_of_create_of_write {t made after : Tree} {path : String} {p : Path} {bytes : ByteArray}
    (hcreate : t.create path = .ok (p, made)) (hwrite : made.write p bytes = .ok after)
    (hfull : t.entry? p ≠ some .full) : after.entry? p = some (.file bytes) := by
  have hp := (entry?_of_create hcreate).1
  unfold create at hcreate
  simp only [hp, bind, Except.bind] at hcreate
  split at hcreate
  . contradiction
  . next h => exact absurd h hfull
  . next hdirectory _ =>
    simp only [Except.ok.injEq, Prod.mk.injEq, true_and] at hcreate
    subst hcreate
    have hmade : entry? (t.set p (.file .empty)) p = some (.file .empty) := by
      apply entry?_set_self hdirectory
    unfold write at hwrite
    rw [hmade] at hwrite
    simp only [ByteArray.empty_append, Except.ok.injEq] at hwrite
    rw [← hwrite]
    apply entry?_set_self
    rw [hmade]
    simp

theorem setIn_setIn (path : Path) (d e : Entry) (es : List (Path × Entry))
    : setIn path e (setIn path d es) = setIn path e es := by
  induction es with
  | nil => simp [setIn]
  | cons pe es ih =>
    rcases pe with ⟨p, c⟩
    by_cases hp : p = path
    . simp only [setIn, hp, ↓reduceIte]
    . simp only [setIn, hp, ↓reduceIte, ih]

theorem setIn_of_lookup {path : Path} {e : Entry} {es : List (Path × Entry)}
    (h : es.lookup path = some e) : setIn path e es = es := by
  induction es with
  | nil => contradiction
  | cons pe es ih =>
    rcases pe with ⟨p, d⟩
    unfold setIn
    split
    . next hp =>
      subst hp
      rw [List.lookup_cons, beq_self_eq_true] at h
      injection h with h
      rw [h]
    . next hp =>
      have hbeq : (path == p) = false := by simpa using Ne.symm hp
      rw [List.lookup_cons, hbeq] at h
      rw [ih h]

theorem set_of_entry? {t : Tree} {path : Path} {e : Entry} (h : t.entry? path = some e)
    (hne : e ≠ .directory) : t.set path e = t := by
  unfold entry? at h
  split at h
  . injection h with h
    exact absurd h.symm hne
  . unfold set
    rw [setIn_of_lookup h]

theorem write_append (t : Tree) (p : Path) (bs cs : ByteArray)
    : t.write p (bs ++ cs) = (t.write p bs).bind fun t => t.write p cs := by
  unfold write
  cases h : t.entry? p with
  | none => rfl
  | some e =>
    cases e with
    | file content =>
      have hset : entry? (t.set p (.file (content ++ bs))) p = some (.file (content ++ bs)) := by
        apply entry?_set_self
        rw [h]
        simp
      simp only [Except.bind, hset]
      unfold set
      rw [setIn_setIn, ByteArray.append_assoc]
    | directory => rfl
    | full =>
      have hempty : (bs ++ cs).isEmpty = (bs.isEmpty && cs.isEmpty) := by
        rw [Bool.eq_iff_iff]
        simp [ByteArray.isEmpty, ByteArray.size_append]
      cases hbs : bs.isEmpty with
      | true => simp only [hempty, hbs, Except.bind, h, Bool.true_and, ↓reduceIte]
      | false => simp only [hempty, hbs, Except.bind, Bool.false_and, Bool.false_eq_true, ↓reduceIte]

/--
The file at a path can be written, if there is space.
-/
inductive Writable (t : Tree) (p : Path) : Prop where
  | file {content : ByteArray} (h : t.entry? p = some (.file content))
  | full (h : t.entry? p = some .full)

theorem writable_of_create {t t' : Tree} {path : String} {p : Path} (h : t.create path = .ok (p, t'))
    : t'.Writable p := by
  unfold create at h
  cases hp : t.locateNew path with
  | error e => simp [hp, bind, Except.bind] at h
  | ok p' =>
    simp only [hp, bind, Except.bind] at h
    split at h
    . contradiction
    . next hfull =>
      simp only [Except.ok.injEq, Prod.mk.injEq] at h
      rcases h with ⟨rfl, rfl⟩
      exact .full hfull
    . next hdirectory _ =>
      simp only [Except.ok.injEq, Prod.mk.injEq] at h
      rcases h with ⟨rfl, rfl⟩
      exact .file (entry?_set_self hdirectory _)

theorem Writable.write_empty {t : Tree} {p : Path} (h : t.Writable p) : t.write p .empty = .ok t := by
  unfold write
  cases h with
  | file h =>
    rw [h]
    dsimp only
    rw [ByteArray.append_empty, set_of_entry? h (by simp)]
  | full h =>
    rw [h]
    rfl

theorem entry?_of_write_file {t t' : Tree} {p : Path} {content bytes : ByteArray}
    (h : t.entry? p = some (.file content)) (hwrite : t.write p bytes = .ok t')
    : t'.entry? p = some (.file (content ++ bytes)) := by
  unfold write at hwrite
  rw [h] at hwrite
  injection hwrite with hwrite
  rw [← hwrite]
  apply entry?_set_self
  rw [h]
  simp

theorem eq_of_write_full {t t' : Tree} {p : Path} {bytes : ByteArray}
    (h : t.entry? p = some .full) (hwrite : t.write p bytes = .ok t') : t' = t := by
  unfold write at hwrite
  rw [h] at hwrite
  dsimp only at hwrite
  split at hwrite
  . injection hwrite with hwrite
    exact hwrite.symm
  . contradiction

theorem Writable.of_write {t t' : Tree} {p : Path} {bytes : ByteArray} (h : t.Writable p)
    (hwrite : t.write p bytes = .ok t')
    : t'.Writable p ∧ (t'.entry? p = some .full → t.entry? p = some .full ∧ t' = t) := by
  cases h with
  | file h =>
    have h' := entry?_of_write_file h hwrite
    refine ⟨.file h', ?_⟩
    intro hfull
    rw [h'] at hfull
    cases hfull
  | full h =>
    have heq := eq_of_write_full h hwrite
    subst heq
    exact ⟨.full h, fun _ => ⟨h, rfl⟩⟩

theorem Writable.full_of_write_error {t : Tree} {p : Path} {bytes : ByteArray} {e : FileError}
    (h : t.Writable p) (hwrite : t.write p bytes = .error e) : t.entry? p = some .full := by
  cases h with
  | file h =>
    unfold write at hwrite
    rw [h] at hwrite
    contradiction
  | full h => exact h

theorem walk_append (t : Tree) (path : Path) (ns ms : List String)
    : t.walk path (ns ++ ms) = (t.walk path ns).bind fun p => t.walk p ms := by
  induction ns generalizing path with
  | nil => rfl
  | cons n ns ih =>
    rw [List.cons_append, walk, walk]
    split
    . rfl
    . apply ih
    . rfl

theorem eq_step_of_walk_singleton {t : Tree} {path p : Path} {name : String}
    (h : t.walk path [name] = .ok p) : p = step path name := by
  unfold walk at h
  split at h
  . contradiction
  . injection h with h
    exact h.symm
  . contradiction

theorem exists_names_eq (path : String) : ∃ before last, names path = before ++ [last] := by
  have hne : names path ≠ [] := by
    unfold names
    rw [Ne, List.map_eq_nil_iff]
    apply pieces_ne_nil
  exact ⟨_, _, (List.dropLast_concat_getLast hne).symm⟩

theorem names_append {path s last : String} {before : List String} (h : names path = before ++ [last])
    (hs : '/' ∉ s.toList) : names (path ++ s) = before ++ [last ++ s] := by
  unfold names at h ⊢
  rw [List.map_eq_append_iff] at h
  rcases h with ⟨ls, ms, hpieces, hls, hms⟩
  rw [List.map_eq_singleton_iff] at hms
  rcases hms with ⟨l, rfl, rfl⟩
  rw [String.toList_append, pieces_append hpieces hs, List.map_append, hls]
  simp [String.ofList_append]

/--
A new file is found next to where the names before the last lead.
-/
theorem eq_of_locateNew {t : Tree} {path last : String} {before : List String} {q : Path}
    (hnames : names path = before ++ [last]) (hlast : last ≠ "") (h : t.locateNew path = .ok q)
    : ∃ above, t.walk (t.start path) before = .ok above ∧ q = above ++ [last] := by
  unfold locateNew at h
  split at h
  . contradiction
  . simp only [hnames, List.reverse_append, List.reverse_cons, List.reverse_nil, List.nil_append,
      List.singleton_append, List.dropWhile_cons, hlast, decide_false, Bool.false_eq_true,
      ↓reduceIte, List.reverse_reverse] at h
    cases hwalk : t.walk (t.start path) before with
    | error e => simp [hwalk, bind, Except.bind] at h
    | ok above =>
      simp only [hwalk, bind, Except.bind] at h
      refine ⟨above, rfl, ?_⟩
      split at h
      . contradiction
      . split at h
        . contradiction
        . injection h with h
          exact h.symm
      . contradiction

theorem ne_of_locateNew_append {t : Tree} {path s : String} {p q : Path} (hs : '/' ∉ s.toList)
    (hne : s ≠ "") (hp : t.locate path = .ok p) (hq : t.locateNew (path ++ s) = .ok q) : q ≠ p := by
  have hpath : path ≠ "" := by
    rintro rfl
    contradiction
  have hstart : t.start (path ++ s) = t.start path := by
    unfold start
    rw [String.toList_append, List.head?_append]
    cases hcs : path.toList with
    | nil => exact absurd (String.toList_eq_nil_iff.mp hcs) hpath
    | cons c cs => rfl
  rcases exists_names_eq path with ⟨before, last, hnames⟩
  have hlast : last ++ s ≠ "" := by
    intro heq
    rw [String.append_eq_empty_iff] at heq
    exact hne heq.2
  rcases eq_of_locateNew (names_append hnames hs) hlast hq with ⟨above, hwalk, rfl⟩
  unfold locate at hp
  rw [if_neg hpath, hnames, walk_append, ← hstart, hwalk] at hp
  have hstep := eq_step_of_walk_singleton hp
  -- Both stand where the names before the last lead, or the first stands further up.
  subst hstep
  intro heq
  unfold step at heq
  split at heq
  . simp at heq
  . split at heq
    . have := congrArg List.length heq
      simp at this
      omega
    . have := List.append_cancel_left heq
      injection this with this
      rw [← String.toList_inj, String.toList_append] at this
      simp_all

end CallFlow.Files.Tree
