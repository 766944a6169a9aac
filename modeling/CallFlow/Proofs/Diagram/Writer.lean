import CallFlow.Proofs.Diagram.Bytes

/-!
This module contains which bytes are put where lines are written: those of the text of the lines, piece by
piece (`writeLines_eq_forM`, `utf8_render`). Where putting two pieces is putting them joined, this is putting
the whole text (`Joins.writeLines_eq`).
-/

namespace CallFlow.Diagram

/--
The pieces of several lines, each with a line feed behind it.
-/
def linePieces (ls : List Line) : List String := ls.flatMap fun l => l.pieces ++ ["\n"]

theorem linePieces_cons (l : Line) (ls : List Line)
    : linePieces (l :: ls) = (l.pieces ++ ["\n"]) ++ linePieces ls := by
  unfold linePieces
  rw [List.flatMap_cons]

theorem render_cons (l : Line) (ls : List Line) : render (l :: ls) = l.text ++ "\n" ++ render ls := by
  unfold render
  rw [List.map_cons, String.join_cons]

theorem utf8_render (ls : List Line) : utf8 (render ls) = (linePieces ls).flatMap utf8 := by
  induction ls with
  | nil => rfl
  | cons l ls ih =>
    rw [render_cons, linePieces_cons, utf8_append, utf8_append, Line.text, utf8_join, ih,
      List.flatMap_append, List.flatMap_append, List.flatMap_singleton]

theorem utf8_render_append (ls later : List Line)
    : utf8 (render (ls ++ later)) = utf8 (render ls) ++ utf8 (render later) := by
  rw [utf8_render, utf8_render, utf8_render, linePieces, List.flatMap_append, List.flatMap_append]
  rfl

namespace Writer

variable {m : Type → Type} [Monad m] {ε : Type}

theorem forM_putLine [LawfulMonad m] (w : Writer m ε) (ls : List Line)
    : forM ls w.putLine = forM (linePieces ls) fun p => w.put (utf8 p) := by
  induction ls with
  | nil => rfl
  | cons l ls ih => rw [linePieces_cons, List.forM_append, List.forM_cons, ih, putLine]

theorem writeLines_eq_forM [LawfulMonad m] (w : Writer m ε) (ls : List Line)
    : w.writeLines ls = (do forM (linePieces ls) fun p => w.put (utf8 p); w.flush) := by
  unfold writeLines
  rw [forM_putLine]

structure Joins (w : Writer m ε) : Prop where
  put_nil : w.put [] = pure ()
  put_append : ∀ bs cs, w.put (bs ++ cs) = (do w.put bs; w.put cs)

theorem Joins.forM_put {w : Writer m ε} (h : w.Joins) (ps : List String)
    : (forM ps fun p => w.put (utf8 p)) = w.put (ps.flatMap utf8) := by
  induction ps with
  | nil => exact h.put_nil.symm
  | cons p ps ih => rw [List.forM_cons, List.flatMap_cons, h.put_append, ih]

theorem Joins.writeLines_eq [LawfulMonad m] {w : Writer m ε} (h : w.Joins) (ls : List Line)
    : w.writeLines ls = (do w.put (utf8 (render ls)); w.flush) := by
  rw [writeLines_eq_forM, h.forM_put, utf8_render]

end Writer

end CallFlow.Diagram
