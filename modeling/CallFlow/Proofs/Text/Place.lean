import Mathlib.Data.List.Basic
import CallFlow.Text.Position

/-!
This module contains that the places of a text are in the order of their bytes: rows and columns follow it
(`IsPlace.upTo`), and where the byte is the same, so is the place (`IsPlace.eq_of_byte_eq`).
-/

namespace CallFlow.Text

/--
The place behind some characters at the start of a text.
-/
def placeBehind (cs : List Char) : Place := cs.foldl Place.past {}

/--
A place of the text: the one behind as many characters as its index says.
-/
def IsPlace (text : Array Char) (p : Place) : Prop := placeBehind (text.toList.take p.index) = p

theorem placeBehind_append (cs ds : List Char)
    : placeBehind (cs ++ ds) = ds.foldl Place.past (placeBehind cs) := by
  unfold placeBehind
  rw [List.foldl_append]

theorem index_foldl_past (p : Place) (cs : List Char)
    : (cs.foldl Place.past p).index = p.index + cs.length := by
  induction cs generalizing p with
  | nil => rfl
  | cons c cs ih =>
    rw [List.foldl_cons, ih, List.length_cons]
    dsimp only [Place.past]
    omega

theorem byte_add_length_le (p : Place) (cs : List Char)
    : p.byte + cs.length ≤ (cs.foldl Place.past p).byte := by
  induction cs generalizing p with
  | nil => exact Nat.le_refl _
  | cons c cs ih =>
    have := ih (p.past c)
    have := c.utf8Size_pos
    rw [List.foldl_cons, List.length_cons]
    dsimp only [Place.past] at *
    omega

theorem row_foldl_past (p : Place) (cs : List Char)
    : p.row < (cs.foldl Place.past p).row ∨
        p.row = (cs.foldl Place.past p).row ∧ p.column ≤ (cs.foldl Place.past p).column := by
  induction cs generalizing p with
  | nil => exact .inr ⟨rfl, Nat.le_refl _⟩
  | cons c cs ih =>
    have := ih (p.past c)
    rw [List.foldl_cons]
    by_cases hc : c = '\n'
    . simp only [Place.past, hc, beq_self_eq_true, if_true] at *
      omega
    . simp only [Place.past, beq_iff_eq, hc, if_false] at *
      omega

namespace IsPlace

variable {text : Array Char} {p q : Place}

theorem origin (text : Array Char) : IsPlace text {} := rfl

theorem index_le (h : IsPlace text p) : p.index ≤ text.size := by
  have hindex := index_foldl_past {} (text.toList.take p.index)
  change (placeBehind _).index = _ at hindex
  rw [h, List.length_take, Array.length_toList] at hindex
  dsimp only at hindex
  omega

theorem past {c : Char} (h : IsPlace text p) (hc : text[p.index]? = some c)
    : IsPlace text (p.past c) := by
  unfold IsPlace
  have htake : text.toList.take (p.index + 1) = text.toList.take p.index ++ [c] := by
    rw [List.take_add_one, Array.getElem?_toList, hc]
    rfl
  change placeBehind (text.toList.take (p.index + 1)) = _
  rw [htake, placeBehind_append, h]
  rfl

/--
A later place is the earlier one past the characters between them.
-/
theorem eq_foldl (hp : IsPlace text p) (hq : IsPlace text q) (h : p.index ≤ q.index)
    : q = ((text.toList.take q.index).drop p.index).foldl Place.past p := by
  have htake : (text.toList.take q.index).take p.index = text.toList.take p.index := by
    rw [List.take_take, Nat.min_eq_left h]
  have hsplit := placeBehind_append ((text.toList.take q.index).take p.index)
    ((text.toList.take q.index).drop p.index)
  rw [List.take_append_drop, htake, hp, hq] at hsplit
  exact hsplit

theorem byte_add_le (hp : IsPlace text p) (hq : IsPlace text q) (h : p.index ≤ q.index)
    : p.byte + (q.index - p.index) ≤ q.byte := by
  have hbyte := byte_add_length_le p ((text.toList.take q.index).drop p.index)
  have hindex := hq.index_le
  rw [← hp.eq_foldl hq h, List.length_drop, List.length_take, Array.length_toList] at hbyte
  omega

theorem index_le_of_byte_le (hp : IsPlace text p) (hq : IsPlace text q) (h : p.byte ≤ q.byte)
    : p.index ≤ q.index := by
  by_contra hlt
  have := hq.byte_add_le hp (by omega)
  omega

theorem upTo (hp : IsPlace text p) (hq : IsPlace text q) (h : p.byte ≤ q.byte)
    : p.row < q.row ∨ p.row = q.row ∧ p.column ≤ q.column := by
  have hrow := row_foldl_past p ((text.toList.take q.index).drop p.index)
  rw [← hp.eq_foldl hq (hp.index_le_of_byte_le hq h)] at hrow
  exact hrow

theorem eq_of_byte_eq (hp : IsPlace text p) (hq : IsPlace text q) (h : p.byte = q.byte) : p = q := by
  have hpq := hp.index_le_of_byte_le hq (by omega)
  have hqp := hq.index_le_of_byte_le hp (by omega)
  have hindex : p.index = q.index := by omega
  unfold IsPlace at hp hq
  rw [← hp, ← hq, hindex]

end IsPlace

end CallFlow.Text
