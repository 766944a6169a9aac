import CallFlow.Files.Buffer
import CallFlow.Proofs.Files.Tree

/-!
This module contains that a file of a tree that is written through a buffer gets the bytes that are put, as if
they were written at once (`run_eq_write`). While bytes are put, those that are held are the ones that the
file has not got yet (`Pending`); a failure leaves the files as they were (`Failed`).
-/

namespace CallFlow.Files.Buffer

open CallFlow.Files.Tree

abbrev Action := ExceptT FileError (StateT (List UInt8) (StateM Tree)) Unit

/--
Of the bytes that have been put to the file at `p`, the buffer holds `held` and the others are in the file.
-/
structure Pending (files : Tree) (p : Path) (done held : List UInt8) (t : Tree) : Prop where
  write : t.write p held.toByteArray = files.write p done.toByteArray
  writable : t.Writable p
  full : t.entry? p = some .full → t = files

structure Failed (files : Tree) (p : Path) (done : List UInt8) (e : FileError) (t : Tree) : Prop where
  write : files.write p done.toByteArray = .error e
  full : files.entry? p = some .full
  unchanged : t = files

variable {files : Tree} {p : Path}

theorem toByteArray_append (bs cs : List UInt8)
    : (bs ++ cs).toByteArray = bs.toByteArray ++ cs.toByteArray := by
  apply ByteArray.ext
  simp

theorem pending_nil {t : Tree} (h : t.Writable p) : Pending t p [] [] t := ⟨rfl, h, fun _ => rfl⟩

theorem Pending.hold {done held : List UInt8} {t : Tree} (h : Pending files p done held t)
    (bytes : List UInt8) : Pending files p (done ++ bytes) (held ++ bytes) t := by
  constructor
  . rw [toByteArray_append, toByteArray_append, Tree.write_append, Tree.write_append, h.write]
  . exact h.writable
  . exact h.full

theorem Failed.append {done : List UInt8} {e : FileError} {t : Tree} (h : Failed files p done e t)
    (bytes : List UInt8) : Failed files p (done ++ bytes) e t := by
  constructor
  . rw [toByteArray_append, Tree.write_append, h.write]
    rfl
  . exact h.full
  . exact h.unchanged

theorem Pending.of_write {done held : List UInt8} {t t' : Tree} (h : Pending files p done held t)
    (hwrite : t.write p held.toByteArray = .ok t') : Pending files p done [] t' := by
  rcases h.writable.of_write hwrite with ⟨hwritable, hfull⟩
  constructor
  . rw [← h.write, hwrite]
    exact hwritable.write_empty
  . exact hwritable
  . intro hfull'
    rcases hfull hfull' with ⟨ht, heq⟩
    rw [heq, h.full ht]

theorem Pending.failed {done held : List UInt8} {t : Tree} {e : FileError}
    (h : Pending files p done held t) (hwrite : t.write p held.toByteArray = .error e)
    : Failed files p done e t := by
  have hfull := h.writable.full_of_write_error hwrite
  have heq := h.full hfull
  subst heq
  exact ⟨h.write ▸ hwrite, hfull, rfl⟩

/--
What there may be once `done` has been put.
-/
inductive Reached (files : Tree) (p : Path) (done : List UInt8)
    : (Except FileError Unit × List UInt8) × Tree → Prop where
  | pending {held : List UInt8} {t : Tree} (h : Pending files p done held t) : Reached files p done ((.ok (), held), t)
  | failed {e : FileError} {held : List UInt8} {t : Tree} (h : Failed files p done e t)
      : Reached files p done ((.error e, held), t)

/--
Whatever has been put before, an action puts `bytes` behind it.
-/
def Puts (p : Path) (action : Action) (bytes : List UInt8) : Prop :=
  ∀ ⦃files : Tree⦄ ⦃done held : List UInt8⦄ ⦃t : Tree⦄, Pending files p done held t →
    Reached files p (done ++ bytes) ((action.run.run held).run t)

theorem run_seq (x y : Action) (held : List UInt8) (t : Tree)
    : ((do x; y).run.run held).run t =
      match (x.run.run held).run t with
      | ((.ok (), held), t) => (y.run.run held).run t
      | ((.error e, held), t) => ((.error e, held), t) := by
  rw [ExceptT.run_bind, StateT.run_bind, StateT.run_bind]
  rcases (x.run.run held).run t with ⟨⟨e | u, held⟩, t⟩
  . rfl
  . rfl

theorem Puts.seq {x y : Action} {bs cs : List UInt8} (hx : Puts p x bs) (hy : Puts p y cs)
    : Puts p (do x; y) (bs ++ cs) := by
  intro files done held t h
  have hbs := hx h
  rw [run_seq, ← List.append_assoc]
  generalize (x.run.run held).run t = r at hbs
  cases hbs with
  | pending h => exact hy h
  | failed h => exact .failed (h.append cs)

theorem puts_forM {α : Type} {f : α → Action} {g : α → List UInt8} (h : ∀ a, Puts p (f a) (g a))
    (as : List α) : Puts p (forM as f) (as.flatMap g) := by
  induction as with
  | nil =>
    intro files done held t h
    rw [List.flatMap_nil, List.append_nil]
    exact .pending h
  | cons a as ih =>
    rw [List.forM_cons, List.flatMap_cons]
    exact (h a).seq ih

theorem puts_hold (bytes : List UInt8) : Puts p (hold bytes) bytes := by
  intro files done held t h
  exact .pending (h.hold bytes)

theorem run_pass (bytes held : List UInt8) (t : Tree)
    : ((pass (m := StateM Tree) p bytes).run.run held).run t =
      match t.write p bytes.toByteArray with
      | .ok t => ((.ok (), held), t)
      | .error e => ((.error e, held), t) := by
  unfold pass
  rw [ExceptT.run_mk, StateT.run_lift, StateT.run_bind]
  simp only [StateT.run, Storage.write]
  cases t.write p bytes.toByteArray with
  | error e => rfl
  | ok t => rfl

theorem run_flush (held : List UInt8) (t : Tree)
    : ((flush (m := StateM Tree) p).run.run held).run t =
      if held = [] then ((.ok (), []), t)
      else
        match t.write p held.toByteArray with
        | .ok t => ((.ok (), []), t)
        | .error e => ((.error e, held), t) := by
  cases held with
  | nil => rfl
  | cons b bs =>
    have hcons : ((flush (m := StateM Tree) p).run.run (b :: bs)).run t
        = ((do pass (m := StateM Tree) p (b :: bs); set ([] : List UInt8)).run.run (b :: bs)).run t := rfl
    rw [hcons, run_seq, run_pass, if_neg (List.cons_ne_nil b bs)]
    cases t.write p (b :: bs).toByteArray with
    | error e => rfl
    | ok t => rfl

theorem reached_flush {done held : List UInt8} {t : Tree} (h : Pending files p done held t)
    : (∃ t', ((flush (m := StateM Tree) p).run.run held).run t = ((.ok (), []), t') ∧
        Pending files p done [] t') ∨
      (∃ e, ((flush (m := StateM Tree) p).run.run held).run t = ((.error e, held), t) ∧
        Failed files p done e t) := by
  rw [run_flush]
  split
  . next hheld =>
    subst hheld
    exact .inl ⟨t, rfl, h⟩
  . cases hwrite : t.write p held.toByteArray with
    | ok t' => exact .inl ⟨t', rfl, h.of_write hwrite⟩
    | error e => exact .inr ⟨e, rfl, h.failed hwrite⟩

theorem reached_pass {done : List UInt8} {t : Tree} (h : Pending files p done [] t)
    (bytes : List UInt8)
    : Reached files p (done ++ bytes) (((pass (m := StateM Tree) p bytes).run.run []).run t) := by
  have hbytes : Pending files p (done ++ bytes) bytes t := h.hold bytes
  rw [run_pass]
  cases hwrite : t.write p bytes.toByteArray with
  | ok t' => exact .pending (hbytes.of_write hwrite)
  | error e => exact .failed (hbytes.failed hwrite)

theorem run_put (bytes held : List UInt8) (t : Tree)
    : ((put (m := StateM Tree) p bytes).run.run held).run t
        =
      ((if bytes.length < capacity - held.length then hold bytes
        else if capacity - held.length < bytes.length then do
          flush (m := StateM Tree) p
          holdOrPass (m := StateM Tree) p bytes
        else holdOrPass (m := StateM Tree) p bytes : Action).run.run held).run t := by
  unfold put
  rfl

theorem puts_put (bytes : List UInt8) : Puts p (put (m := StateM Tree) p bytes) bytes := by
  intro files done held t h
  rw [run_put]
  split
  . exact puts_hold bytes h
  . next hlong =>
    split
    . rw [run_seq]
      rcases reached_flush h with ⟨t', heq, hpending⟩ | ⟨e, heq, hfailed⟩
      . rw [heq]
        dsimp only
        unfold holdOrPass
        split
        . exact puts_hold bytes hpending
        . exact reached_pass hpending bytes
      . rw [heq]
        exact .failed (hfailed.append bytes)
    . next hshort =>
      unfold holdOrPass
      split
      . exact puts_hold bytes h
      . -- There is room for as many bytes as the whole buffer has, so nothing is held.
        have hnil : held = [] := by
          apply List.eq_nil_of_length_eq_zero
          unfold capacity at *
          omega
        subst hnil
        exact reached_pass h bytes

theorem snd_flush_of_full {t : Tree} (h : t.entry? p = some .full) (held : List UInt8)
    : (((flush (m := StateM Tree) p).run.run held).run t).2 = t := by
  rw [run_flush]
  split
  . rfl
  . cases hwrite : t.write p held.toByteArray with
    | ok t' => exact eq_of_write_full h hwrite
    | error e => rfl

theorem run_run (p : Path) (action : Action) (t : Tree)
    : (run (m := StateM Tree) p action).run t
        =
      (((action.run.run []).run t).1.1,
        (((flush (m := StateM Tree) p).run.run ((action.run.run []).run t).1.2).run
          ((action.run.run []).run t).2).2) := rfl

theorem run_of_failed {action : Action} {bytes held : List UInt8} {e : FileError} {t t' : Tree}
    (heq : (action.run.run []).run t = ((.error e, held), t')) (h : Failed t p bytes e t')
    : (run (m := StateM Tree) p action).run t = (.error e, t) := by
  rcases h with ⟨_, hfull, rfl⟩
  rw [run_run, heq, snd_flush_of_full hfull]

/--
A file that is written through a buffer gets what the action puts, as if it were written at once.
-/
theorem run_eq_write {action : Action} {bytes : List UInt8} {t : Tree} (h : t.Writable p)
    (haction : Puts p action bytes)
    : (run (m := StateM Tree) p (do action; flush (m := StateM Tree) p)).run t =
      match t.write p bytes.toByteArray with
      | .ok t => (.ok (), t)
      | .error e => (.error e, t) := by
  have hreached := haction (pending_nil h)
  rw [List.nil_append] at hreached
  have hseq := run_seq action (flush (m := StateM Tree) p) [] t
  generalize (action.run.run []).run t = r at hreached hseq
  cases hreached with
  | failed hfailed =>
    rw [hfailed.write]
    exact run_of_failed hseq hfailed
  | @pending held t' hpending =>
    dsimp only at hseq
    rcases reached_flush hpending with ⟨t'', heq, hdone⟩ | ⟨e, heq, hfailed⟩
    . rw [run_run, hseq, heq]
      have hwrite := hdone.write
      have hempty : ([] : List UInt8).toByteArray = .empty := rfl
      rw [hempty, hdone.writable.write_empty] at hwrite
      rw [← hwrite]
      rfl
    . rw [hfailed.write]
      exact run_of_failed (hseq.trans heq) hfailed

end CallFlow.Files.Buffer
