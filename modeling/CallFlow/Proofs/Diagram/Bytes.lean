import Mathlib.Data.String.Basic
import CallFlow.Diagram.Writer

/-!
This module contains the bytes of texts: those of the characters, one after another (`utf8_eq_flatMap`).
They have as many line feeds as there are in the text (`count_utf8`), and texts are in the order of their
bytes (`utf8_lt_utf8_iff`), since a larger character has larger bytes whatever comes behind it
(`utf8EncodeChar_append_lt`).
-/

namespace CallFlow.Diagram

theorem utf8_append (s t : String) : utf8 (s ++ t) = utf8 s ++ utf8 t := by
  unfold utf8
  rw [String.toByteArray_append, ByteArray.data_append, Array.toList_append]

theorem utf8_join (ss : List String) : utf8 (String.join ss) = ss.flatMap utf8 := by
  induction ss with
  | nil => rfl
  | cons s ss ih => rw [String.join_cons, utf8_append, ih, List.flatMap_cons]

theorem toByteArray_utf8 (s : String) : (utf8 s).toByteArray = s.toByteArray := by
  apply ByteArray.ext
  unfold utf8
  rw [List.data_toByteArray, Array.toArray_toList]

theorem utf8_eq_flatMap (s : String) : utf8 s = s.toList.flatMap String.utf8EncodeChar := by
  unfold utf8
  conv => lhs; rw [← String.ofList_toList (s := s)]
  rw [String.toByteArray_ofList, List.utf8Encode, List.data_toByteArray]

/--
Only a line feed has the byte of one: those of longer characters are not ASCII.
-/
theorem line_feed_not_mem_utf8EncodeChar {c : Char} (h : c ≠ '\n')
    : 10 ∉ String.utf8EncodeChar c := by
  have hne : c.val.toNat ≠ 10 := by
    intro hval
    apply h
    apply Char.ext
    apply UInt32.toNat_inj.mp
    exact hval
  unfold String.utf8EncodeChar
  generalize c.val.toNat = v at hne
  dsimp only
  split
  . simp [← UInt8.toNat_inj]
    omega
  . split
    . simp [← UInt8.toNat_inj]
      omega
    . split
      . simp [← UInt8.toNat_inj]
        omega
      . simp [← UInt8.toNat_inj]
        omega

theorem count_utf8 (s : String) : (utf8 s).count 10 = s.toList.count '\n' := by
  rw [utf8_eq_flatMap]
  induction s.toList with
  | nil => rfl
  | cons c cs ih =>
    rw [List.flatMap_cons, List.count_append, ih]
    by_cases hc : c = '\n'
    . subst hc
      rw [List.count_cons_self, Nat.add_comm]
      rfl
    . rw [List.count_cons_of_ne hc, List.count_eq_zero_of_not_mem (line_feed_not_mem_utf8EncodeChar hc),
        Nat.zero_add]

theorem ofNat_cons_lt_ofNat_cons_iff {a b : Nat} (ha : a < 256) (hb : b < 256) (as bs : List UInt8)
    : UInt8.ofNat a :: as < UInt8.ofNat b :: bs ↔ a < b ∨ a = b ∧ as < bs := by
  rw [List.cons_lt_cons_iff, UInt8.lt_iff_toNat_lt, ← UInt8.toNat_inj, UInt8.toNat_ofNat',
    UInt8.toNat_ofNat', Nat.mod_eq_of_lt ha, Nat.mod_eq_of_lt hb]

theorem utf8EncodeChar_append_lt {c d : Char} (h : c < d) (as bs : List UInt8)
    : String.utf8EncodeChar c ++ as < String.utf8EncodeChar d ++ bs := by
  have hlt : c.val.toNat < d.val.toNat := by
    rw [Char.lt_def, UInt32.lt_iff_toNat_lt] at h
    exact h
  have hd : d.val.toNat < 0x110000 := by
    have := d.valid
    simp only [UInt32.isValidChar, Nat.isValidChar] at this
    omega
  have hdiv : ∀ n : Nat, n / 4096 = n / 64 / 64 := by
    intro n
    rw [Nat.div_div_eq_div_mul]
  have hdiv' : ∀ n : Nat, n / 262144 = n / 64 / 64 / 64 := by
    intro n
    rw [Nat.div_div_eq_div_mul, Nat.div_div_eq_div_mul]
  unfold String.utf8EncodeChar
  generalize c.val.toNat = v at hlt
  generalize d.val.toNat = w at hlt hd
  dsimp only
  simp only [hdiv, hdiv']
  -- The first byte grows with the number of bytes. If that is the same, the bytes are the digits of the
  -- code points to base 64, from the highest one on.
  repeat' split
  all_goals
    simp (disch := omega) only [List.cons_append, List.nil_append, ofNat_cons_lt_ofNat_cons_iff]
    omega

theorem utf8_lt_utf8 {s t : String} (h : s < t) : utf8 s < utf8 t := by
  rw [String.lt_iff_toList_lt] at h
  rw [utf8_eq_flatMap, utf8_eq_flatMap]
  generalize s.toList = cs, t.toList = ds at h
  induction h with
  | @nil d ds =>
    rw [List.flatMap_nil, List.flatMap_cons]
    cases hd : String.utf8EncodeChar d with
    | nil => simp at hd
    | cons b bs => apply List.nil_lt_cons
  | rel h =>
    rw [List.flatMap_cons, List.flatMap_cons]
    apply utf8EncodeChar_append_lt h
  | cons _ ih =>
    rw [List.flatMap_cons, List.flatMap_cons]
    apply List.append_left_lt ih

theorem utf8_lt_utf8_iff (s t : String) : utf8 s < utf8 t ↔ s < t := by
  constructor
  . intro h
    rcases lt_trichotomy s t with hlt | rfl | hgt
    . exact hlt
    . exact absurd h (List.lt_irrefl _)
    . exact absurd h (List.lt_asymm (utf8_lt_utf8 hgt))
  . exact utf8_lt_utf8

theorem utf8_inj {s t : String} (h : utf8 s = utf8 t) : s = t := by
  apply String.toByteArray_inj.mp
  apply ByteArray.ext
  apply Array.toList_inj.mp
  exact h

end CallFlow.Diagram
