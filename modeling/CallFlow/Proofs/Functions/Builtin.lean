import Mathlib.Data.String.Basic
import CallFlow.Functions.Builtin
import CallFlow.Proofs.Diagram.Bytes

/-!
This module contains that a search among rising names finds exactly the names that are there, whichever
of them it looks at (`Bisects.eq_true_iff_mem`). Looking a name up by halving is such a search
(`bisects_searchSorted`), so `isBuiltin` is membership in `builtins`.
-/

namespace CallFlow.Functions

open CallFlow.Diagram

/--
Each name is smaller than those after it.
-/
def Rising (names : Array String) : Prop :=
  ∀ (i j : Nat) (a b : String), i < j → names[i]? = some a → names[j]? = some b → a < b

/--
A name is among those from index `lo` up to index `hi`.
-/
def Occurs (names : Array String) (name : String) (lo hi : Nat) : Prop :=
  ∃ i, lo ≤ i ∧ i < hi ∧ names[i]? = some name

/--
A search for a name among those from index `lo` up to index `hi`, and its answer. It compares the bytes of
the name with those of the one at any index `mid`, and leaves out names on the side where it cannot be.
Where the bytes are equal it ends, or goes on from there.
-/
inductive Bisects (names : Array String) (name : String) : Nat → Nat → Bool → Prop where
  | empty {lo hi : Nat} (h : hi ≤ lo) : Bisects names name lo hi false
  | left {lo mid cut hi : Nat} {found : String} {answer : Bool} (hfound : names[mid]? = some found)
      (hless : utf8 name < utf8 found) (hmid : mid ≤ cut) (hcut : cut ≤ hi)
      (rest : Bisects names name lo cut answer) : Bisects names name lo hi answer
  | right {lo mid cut hi : Nat} {found : String} {answer : Bool} (hfound : names[mid]? = some found)
      (hless : utf8 found < utf8 name) (hcut : lo ≤ cut) (hmid : cut ≤ mid + 1)
      (rest : Bisects names name cut hi answer) : Bisects names name lo hi answer
  | onward {lo mid cut hi : Nat} {found : String} {answer : Bool} (hfound : names[mid]? = some found)
      (heq : utf8 found = utf8 name) (hcut : lo ≤ cut) (hmid : cut ≤ mid)
      (rest : Bisects names name cut hi answer) : Bisects names name lo hi answer
  | found {lo mid hi : Nat} {found : String} (hfound : names[mid]? = some found)
      (heq : utf8 found = utf8 name) (hlo : lo ≤ mid) (hhi : mid < hi) : Bisects names name lo hi true

/--
Nothing is lost by leaving out indices where the name is not.
-/
theorem occurs_iff_of_within {names : Array String} {name : String} {lo lo' hi' hi : Nat}
    (hlo : lo ≤ lo') (hhi : hi' ≤ hi)
    (hwithin : ∀ i, lo ≤ i → i < hi → names[i]? = some name → lo' ≤ i ∧ i < hi')
    : Occurs names name lo' hi' ↔ Occurs names name lo hi := by
  constructor
  . rintro ⟨i, h1, h2, h3⟩
    exact ⟨i, by omega, by omega, h3⟩
  . rintro ⟨i, h1, h2, h3⟩
    rcases hwithin i h1 h2 h3 with ⟨h1', h2'⟩
    exact ⟨i, h1', h2', h3⟩

theorem occurs_size_iff (names : Array String) (name : String)
    : Occurs names name 0 names.size ↔ name ∈ names := by
  rw [Array.mem_iff_getElem?]
  constructor
  . rintro ⟨i, _, _, h⟩
    exact ⟨i, h⟩
  . rintro ⟨i, h⟩
    rcases Array.getElem?_eq_some_iff.mp h with ⟨hi, _⟩
    exact ⟨i, Nat.zero_le i, hi, h⟩

namespace Rising

variable {names : Array String} {i j : Nat} {a b : String}

theorem lt_of_lt (h : Rising names) (ha : names[i]? = some a) (hb : names[j]? = some b)
    (hless : a < b) : i < j := by
  apply Nat.lt_of_not_le
  intro hle
  cases Nat.eq_or_lt_of_le hle with
  | inl heq =>
    rw [heq, ha, Option.some.injEq] at hb
    apply ne_of_lt hless hb
  | inr hlt =>
    apply lt_asymm hless
    apply h j i b a hlt hb ha

theorem eq_of_eq (h : Rising names) (ha : names[i]? = some a) (hb : names[j]? = some a) : i = j := by
  apply Nat.le_antisymm
  . apply Nat.le_of_not_lt
    intro hlt
    apply lt_irrefl a (h j i a a hlt hb ha)
  . apply Nat.le_of_not_lt
    intro hlt
    apply lt_irrefl a (h i j a a hlt ha hb)

end Rising

namespace Bisects

variable {names : Array String} {name : String} {lo hi : Nat} {answer : Bool}

theorem eq_true_iff_occurs (h : Bisects names name lo hi answer) (hrising : Rising names)
    : answer = true ↔ Occurs names name lo hi := by
  induction h with
  | empty hle =>
    simp only [Bool.false_eq_true, false_iff]
    rintro ⟨i, h1, h2, _⟩
    omega
  | left hfound hless hmid hcut _ ih =>
    rw [ih]
    apply occurs_iff_of_within (Nat.le_refl _) hcut
    intro i h1 h2 hi
    have := hrising.lt_of_lt hi hfound ((utf8_lt_utf8_iff _ _).mp hless)
    omega
  | right hfound hless hcut hmid _ ih =>
    rw [ih]
    apply occurs_iff_of_within hcut (Nat.le_refl _)
    intro i h1 h2 hi
    have := hrising.lt_of_lt hfound hi ((utf8_lt_utf8_iff _ _).mp hless)
    omega
  | onward hfound heq hcut hmid _ ih =>
    rw [ih]
    apply occurs_iff_of_within hcut (Nat.le_refl _)
    intro i h1 h2 hi
    rw [utf8_inj heq] at hfound
    have := hrising.eq_of_eq hi hfound
    omega
  | found hfound heq hlo hhi =>
    rw [utf8_inj heq] at hfound
    simp only [true_iff]
    exact ⟨_, hlo, hhi, hfound⟩

theorem eq_true_iff_mem (h : Bisects names name 0 names.size answer) (hrising : Rising names)
    : answer = true ↔ name ∈ names := by
  rw [h.eq_true_iff_occurs hrising, occurs_size_iff]

end Bisects

theorem bisects_searchSorted (names : Array String) (name : String) (lo hi : Nat)
    (hhi : hi ≤ names.size) : Bisects names name lo hi (searchSorted names name lo hi) := by
  fun_induction searchSorted names name lo hi with
  | case1 lo hi hlt hnone =>
    rw [Array.getElem?_eq_none_iff] at hnone
    omega
  | case2 lo hi hlt found hfound hless ih =>
    apply Bisects.left hfound (utf8_lt_utf8 hless) (Nat.le_refl _) (by omega)
    apply ih
    omega
  | case3 lo hi hlt found hfound hless hgreater ih =>
    apply Bisects.right hfound (utf8_lt_utf8 hgreater) (by omega) (Nat.le_refl _)
    apply ih hhi
  | case4 lo hi hlt found hfound hless hgreater =>
    have heq : found = name := le_antisymm (not_lt.mp hless) (not_lt.mp hgreater)
    apply Bisects.found hfound (congrArg utf8 heq) (by omega) (by omega)
  | case5 lo hi hge =>
    apply Bisects.empty
    omega

theorem rising_builtins : Rising builtins := by
  have h : builtins.toList.Pairwise (· < ·) := by decide +kernel
  rw [List.pairwise_iff_getElem] at h
  intro i j a b hij hi hj
  rw [Array.getElem?_eq_some_iff] at hi hj
  rcases hi with ⟨hi, rfl⟩
  rcases hj with ⟨hj, rfl⟩
  apply h i j hi hj hij

theorem bisects_isBuiltin (name : String)
    : Bisects builtins name 0 builtins.size (isBuiltin name) := by
  apply bisects_searchSorted
  apply Nat.le_refl

theorem isBuiltin_iff (name : String) : isBuiltin name = true ↔ name ∈ builtins := by
  apply (bisects_isBuiltin name).eq_true_iff_mem rising_builtins

/--
A name is looked up by a search that compares bytes, and it is found exactly if it is one of those of the
built-in functions. To go through these one by one tells the same, and so does every other such search.
-/
theorem isBuiltin_is_membership (name : String)
    : Bisects builtins name 0 builtins.size (isBuiltin name) ∧
      (isBuiltin name = true ↔ name ∈ builtins) ∧
      isBuiltin name = builtins.contains name ∧
      ∀ answer, Bisects builtins name 0 builtins.size answer → answer = isBuiltin name := by
  refine ⟨bisects_isBuiltin name, isBuiltin_iff name, ?_, ?_⟩
  . rw [Bool.eq_iff_iff, isBuiltin_iff, Array.contains_iff_mem]
  . intro answer h
    rw [Bool.eq_iff_iff, h.eq_true_iff_mem rising_builtins, isBuiltin_iff]

/--
A name that begins with the last one, and a search that looks at that one only.
-/
theorem isBuiltin_is_membership_extended
    : Bisects builtins "zipper" 0 builtins.size false ∧ isBuiltin "zipper" = false ∧
        "zipper" ∉ builtins := by
  have hsearch : Bisects builtins "zipper" 0 builtins.size false := by
    apply Bisects.right (show builtins[62]? = some "zip" from rfl)
    . decide
    . apply Nat.zero_le
    . apply Nat.le_refl
    . apply Bisects.empty
      decide
  rcases isBuiltin_is_membership "zipper" with ⟨_, hmem, _, hany⟩
  have hfalse : isBuiltin "zipper" = false := (hany false hsearch).symm
  refine ⟨hsearch, hfalse, ?_⟩
  rw [← hmem, hfalse]
  decide

end CallFlow.Functions
