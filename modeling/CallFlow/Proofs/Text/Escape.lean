import Mathlib.Algebra.GroupWithZero.Nat
import Mathlib.Data.List.Induction
import Mathlib.Data.List.TakeWhile
import CallFlow.Text.Escape

/-!
This module contains that escape sequences say what they stand for. However the characters of a text are
spelled in a literal, reading the literal gives the text (`unescape_of_spelled`).
-/

namespace CallFlow.Text

/--
The digits of a number, letters among them in either case, with any number of zeros before them.
-/
def Numeral (base n : Nat) (digits : List Char) : Prop :=
  ∃ zeros, digits.map Char.toLower = List.replicate zeros '0' ++ Nat.toDigits base n

/--
The letters that stand for a character behind a backslash.
-/
def letterEscapes : List (Char × Char) := [
  ('\\', '\\'), ('\x27', '\x27'), ('\x22', '\x22'), ('a', '\x07'), ('b', '\x08'), ('f', '\x0c'),
  ('n', '\n'), ('r', '\r'), ('t', '\t'), ('v', '\x0b')
]

/--
The letters that call for a number in base 16 behind them, and how many digits it has to have.
-/
def hexWidths : List (Char × Nat) := [('x', 2), ('u', 4), ('U', 8)]

/--
The ways to write a character in a literal that goes on with `rest`.
-/
inductive Spells (rest : List Char) (c : Char) : List Char → Prop where
  | self (h : c ≠ '\\') : Spells rest c [c]
  | letter {letter : Char} (h : (letter, c) ∈ letterEscapes) : Spells rest c ['\\', letter]
  /-- Up to three digits; fewer only if what follows cannot be taken for one more. -/
  | octal {digits : List Char} (h : Numeral 8 c.toNat digits) (hlen : digits.length ≤ 3)
      (hrest : digits.length < 3 → ∀ d ∈ rest.head?, ¬('0' ≤ d ∧ d ≤ '7'))
      : Spells rest c ('\\' :: digits)
  | hex {letter : Char} {digits : List Char} (h : Numeral 16 c.toNat digits)
      (hlen : (letter, digits.length) ∈ hexWidths) : Spells rest c ('\\' :: letter :: digits)

/--
A text and a way to write it in a literal. Between the characters the literal may go on in a new line.
-/
inductive Spelled : List Char → List Char → Prop where
  | nil : Spelled [] []
  | join {cs raw : List Char} (h : Spelled cs raw) : Spelled cs ('\\' :: '\n' :: raw)
  | char {c : Char} {cs spelling raw : List Char} (hc : Spells raw c spelling) (h : Spelled cs raw)
      : Spelled (c :: cs) (spelling ++ raw)

theorem toLower_eq_self_or (c : Char)
    : c.toLower = c ∨ 65 ≤ c.toNat ∧ c.toNat ≤ 90 ∧ c.toLower.toNat = c.toNat + 32 := by
  unfold Char.toLower
  split
  . next h =>
    rw [ge_iff_le, UInt32.le_iff_toNat_le, UInt32.le_iff_toNat_le] at h
    refine .inr ⟨h.1, h.2, ?_⟩
    have : ('a'.val - 'A'.val).toNat = 32 := rfl
    have : 'Z'.val.toNat = 90 := rfl
    have : (c.val + ('a'.val - 'A'.val)).toNat = c.val.toNat + 32 := by
      rw [UInt32.toNat_add]
      omega
    exact this
  . exact .inl rfl

theorem isDigit_eq (c : Char) : c.isDigit = decide (48 ≤ c.toNat ∧ c.toNat ≤ 57) := by
  unfold Char.isDigit
  simp [UInt32.le_iff_toNat_le]

theorem digitValue_toLower (c : Char) : digitValue c.toLower = digitValue c := by
  cases toLower_eq_self_or c with
  | inl h => rw [h]
  | inr h =>
    rcases h with ⟨hge, hle, h⟩
    have hlarge : 'a' ≤ c.toLower := by
      show 97 ≤ c.toLower.toNat
      omega
    have hsmall : ¬('a' ≤ c) := by
      show ¬97 ≤ c.toNat
      omega
    have hdigit : c.isDigit = false ∧ c.toLower.isDigit = false := by
      rw [isDigit_eq, isDigit_eq, h]
      simp
      omega
    simp [digitValue, hdigit, hlarge, hsmall, h]

theorem isOctalDigit_of_toLower {c : Char} {d : Nat} (hd : d < 8) (h : c.toLower = d.digitChar)
    : isOctalDigit c = true := by
  have hdigit : ∀ d < 8, isOctalDigit d.digitChar = true ∧ d.digitChar.toNat < 97 := by decide
  rcases hdigit d hd with ⟨hoctal, hlt⟩
  rw [← h] at hoctal hlt
  cases toLower_eq_self_or c with
  | inl heq =>
    rw [heq] at hoctal
    exact hoctal
  | inr hcapital => omega

theorem isHexDigit_of_toLower {c : Char} {d : Nat} (hd : d < 16) (h : c.toLower = d.digitChar)
    : isHexDigit c = true := by
  have hdigit : ∀ d < 16, isHexDigit d.digitChar = true ∧ d.digitChar.toNat ≤ 102 := by decide
  rcases hdigit d hd with ⟨hhex, hle⟩
  rw [← h] at hhex hle
  cases toLower_eq_self_or c with
  | inl heq =>
    rw [heq] at hhex
    exact hhex
  | inr hcapital =>
    have hA : 'A' ≤ c := hcapital.1
    have hF : c ≤ 'F' := by
      show c.toNat ≤ 70
      omega
    simp [isHexDigit, hA, hF]

theorem numberOf_append_singleton (base : Nat) (ds : List Char) (d : Char)
    : numberOf base (ds ++ [d]) = numberOf base ds * base + digitValue d := by
  unfold numberOf
  rw [List.foldl_append]
  rfl

theorem numberOf_map_toLower (base : Nat) (ds : List Char)
    : numberOf base (ds.map Char.toLower) = numberOf base ds := by
  unfold numberOf
  rw [List.foldl_map]
  simp only [digitValue_toLower]

theorem numberOf_zeros_append (base zeros : Nat) (ds : List Char)
    : numberOf base (List.replicate zeros '0' ++ ds) = numberOf base ds := by
  induction zeros with
  | zero => rfl
  | succ zeros ih =>
    rw [← ih]
    unfold numberOf
    rw [List.replicate_succ, List.cons_append, List.foldl_cons]
    have : 0 * base + digitValue '0' = 0 := Nat.zero_mul base
    rw [this]

theorem digitValue_digitChar {d : Nat} (h : d < 16) : digitValue d.digitChar = d := by
  have hvalue : ∀ d < 16, digitValue d.digitChar = d := by decide
  apply hvalue d h

theorem numberOf_toDigits {base : Nat} (hbase : 1 < base) (hle : base ≤ 16) (n : Nat)
    : numberOf base (Nat.toDigits base n) = n := by
  induction n using Nat.strongRecOn with
  | ind n ih =>
    rw [Nat.toDigits_eq_if hbase]
    split
    . next hlt =>
      have : numberOf base [n.digitChar] = 0 * base + digitValue n.digitChar := rfl
      rw [this, digitValue_digitChar (by omega), Nat.zero_mul, Nat.zero_add]
    . next hge =>
      have hmod : n % base < base := Nat.mod_lt n (by omega)
      have hdiv : n / base < n := Nat.div_lt_self (by omega) hbase
      rw [numberOf_append_singleton, ih (n / base) hdiv, digitValue_digitChar (by omega),
        Nat.div_add_mod']

theorem exists_digitChar_of_mem_toDigits {base n : Nat} (hbase : 1 < base) {c : Char}
    (h : c ∈ Nat.toDigits base n) : ∃ d < base, c = d.digitChar := by
  induction n using Nat.strongRecOn with
  | ind n ih =>
    rw [Nat.toDigits_eq_if hbase] at h
    split at h
    . next hlt =>
      rw [List.mem_singleton] at h
      exact ⟨n, hlt, h⟩
    . next hge =>
      rw [List.mem_append, List.mem_singleton] at h
      cases h with
      | inl h => exact ih (n / base) (Nat.div_lt_self (by omega) hbase) h
      | inr h => exact ⟨n % base, Nat.mod_lt n (by omega), h⟩

namespace Numeral

theorem numberOf_eq {base n : Nat} {digits : List Char} (h : Numeral base n digits)
    (hbase : 1 < base) (hle : base ≤ 16) : numberOf base digits = n := by
  rcases h with ⟨zeros, h⟩
  rw [← numberOf_map_toLower, h, numberOf_zeros_append, numberOf_toDigits hbase hle]

theorem ne_nil {base n : Nat} {digits : List Char} (h : Numeral base n digits) : digits ≠ [] := by
  rintro rfl
  rcases h with ⟨zeros, h⟩
  have := (List.append_eq_nil_iff.mp h.symm).2
  apply Nat.toDigits_ne_nil this

theorem exists_digitChar {base n : Nat} {digits : List Char} (h : Numeral base n digits)
    (hbase : 1 < base) {c : Char} (hc : c ∈ digits) : ∃ d < base, c.toLower = d.digitChar := by
  rcases h with ⟨zeros, h⟩
  have hmem : c.toLower ∈ digits.map Char.toLower := List.mem_map_of_mem hc
  rw [h, List.mem_append, List.mem_replicate] at hmem
  cases hmem with
  | inl hzero => exact ⟨0, by omega, hzero.2⟩
  | inr hdigit => exact exists_digitChar_of_mem_toDigits hbase hdigit

end Numeral

theorem exists_digitChar_of_isOctalDigit {c : Char} (h : isOctalDigit c = true)
    : ∃ d < 8, c.toLower = d.digitChar := by
  have hsmall : ∀ n < 56, isOctalDigit (Char.ofNat n) = true →
      ∃ d < 8, (Char.ofNat n).toLower = d.digitChar := by decide
  have hlt : c.toNat < 56 := by
    simp [isOctalDigit, Char.le_def, UInt32.le_iff_toNat_le] at h
    exact Nat.lt_succ_of_le h.2
  have := hsmall c.toNat hlt
  rw [Char.ofNat_toNat] at this
  apply this h

theorem exists_digitChar_of_isHexDigit {c : Char} (h : isHexDigit c = true)
    : ∃ d < 16, c.toLower = d.digitChar := by
  have hsmall : ∀ n < 103, isHexDigit (Char.ofNat n) = true →
      ∃ d < 16, (Char.ofNat n).toLower = d.digitChar := by decide
  have hlt : c.toNat < 103 := by
    simp [isHexDigit, isDigit_eq, Char.le_def, UInt32.le_iff_toNat_le] at h
    have : c.val.toNat = c.toNat := rfl
    omega
  have := hsmall c.toNat hlt
  rw [Char.ofNat_toNat] at this
  apply this h

theorem digitValue_of_toLower {c : Char} {d : Nat} (hd : d < 16) (h : c.toLower = d.digitChar)
    : digitValue c = d := by
  rw [← digitValue_toLower, h, digitValue_digitChar hd]

theorem numberOf_lt {base : Nat} {digits : List Char} (hle : base ≤ 16)
    (h : ∀ c ∈ digits, ∃ d < base, c.toLower = d.digitChar)
    : numberOf base digits < base ^ digits.length := by
  induction digits using List.reverseRecOn with
  | nil => simp [numberOf]
  | append_singleton ds c ih =>
    rcases h c (by simp) with ⟨d, hd, hc⟩
    have hlt : numberOf base ds + 1 ≤ base ^ ds.length := by
      apply ih
      intro e he
      apply h e
      simp [he]
    rw [numberOf_append_singleton, digitValue_of_toLower (by omega) hc, List.length_append,
      List.length_singleton, Nat.pow_succ]
    have := Nat.mul_le_mul_right base hlt
    rw [Nat.add_mul] at this
    omega

theorem numeral_numberOf {base : Nat} {digits : List Char} (hbase : 1 < base) (hle : base ≤ 16)
    (hne : digits ≠ []) (h : ∀ c ∈ digits, ∃ d < base, c.toLower = d.digitChar)
    : Numeral base (numberOf base digits) digits := by
  induction digits using List.reverseRecOn with
  | nil => contradiction
  | append_singleton ds c ih =>
    rcases h c (by simp) with ⟨d, hd, hc⟩
    rw [numberOf_append_singleton, digitValue_of_toLower (by omega) hc]
    unfold Numeral
    rw [List.map_append, List.map_singleton, hc]
    by_cases hds : ds = []
    . subst hds
      refine ⟨0, ?_⟩
      simp [numberOf, Nat.toDigits_of_lt_base hd]
    . have hinit : ∀ e ∈ ds, ∃ d < base, e.toLower = d.digitChar := by
        intro e he
        apply h e
        simp [he]
      rcases ih hds hinit with ⟨zeros, hzeros⟩
      rw [hzeros]
      by_cases hn : numberOf base ds = 0
      . -- Zeros only, and the last of them now stands before the digit.
        refine ⟨zeros + 1, ?_⟩
        rw [hn, Nat.zero_mul, Nat.zero_add, Nat.toDigits_zero, Nat.toDigits_of_lt_base hd,
          List.replicate_succ']
      . refine ⟨zeros, ?_⟩
        rw [Nat.mul_comm, ← Nat.toDigits_append_toDigits hbase (by omega) hd,
          Nat.toDigits_of_lt_base hd, List.append_assoc]

theorem charOf?_toNat (c : Char) : charOf? c.toNat = some c := by
  have hvalid : c.toNat.isValidChar := c.valid
  unfold charOf?
  rw [dif_pos hvalid]
  rfl

theorem charOf?_eq_none_iff {n : Nat}
    : charOf? n = none ↔ 0xD800 ≤ n ∧ n ≤ 0xDFFF ∨ 0x10FFFF < n := by
  have hvalid : n.isValidChar ↔ ¬(0xD800 ≤ n ∧ n ≤ 0xDFFF ∨ 0x10FFFF < n) := by
    unfold Nat.isValidChar
    omega
  unfold charOf?
  by_cases h : n.isValidChar
  . rw [dif_pos h]
    apply iff_of_false
    . exact Option.some_ne_none _
    . rw [← hvalid]
      exact h
  . rw [dif_neg h]
    rw [hvalid, not_not] at h
    exact iff_of_true rfl h

theorem toNat_of_charOf? {n : Nat} {c : Char} (h : charOf? n = some c) : c.toNat = n := by
  unfold charOf? at h
  by_cases hvalid : n.isValidChar
  . rw [dif_pos hvalid] at h
    injection h with h
    rw [← h]
    rfl
  . rw [dif_neg hvalid] at h
    contradiction

theorem leadingDigits_append {isDigit : Char → Bool} {width : Nat} {ds rest : List Char}
    (hds : ∀ d ∈ ds, isDigit d = true) (hlen : ds.length ≤ width)
    (hrest : ds.length < width → ∀ c ∈ rest.head?, isDigit c = false)
    : leadingDigits isDigit width (ds ++ rest) = ds := by
  -- Either the width is used up, or the next character is no digit.
  have hnone : (rest.take (width - ds.length)).takeWhile isDigit = [] := by
    cases rest with
    | nil => simp
    | cons c rest =>
      by_cases hlt : ds.length < width
      . rw [show width - ds.length = width - ds.length - 1 + 1 by omega, List.take_succ_cons,
          List.takeWhile_cons, hrest hlt c rfl]
        rfl
      . rw [show width - ds.length = 0 by omega]
        rfl
  unfold leadingDigits
  rw [List.take_append, List.take_of_length_le hlen, List.takeWhile_append_of_pos hds, hnone,
    List.append_nil]

theorem readEscape_letter {letter c : Char} (h : (letter, c) ∈ letterEscapes) (rest : List Char)
    : readEscape (letter :: rest) = ([c], rest) := by
  have hescape : ∀ e ∈ letterEscapes, escapeOf? e.1 = some [e.2] := by decide
  have := hescape _ h
  unfold readEscape
  simp [this]

theorem escapeOf?_of_isOctalDigit {c : Char} (h : isOctalDigit c = true) : escapeOf? c = none := by
  unfold escapeOf?
  split <;> try contradiction
  rfl

theorem readEscape_octal {c : Char} {digits rest : List Char} (h : Numeral 8 c.toNat digits)
    (hlen : digits.length ≤ 3)
    (hrest : digits.length < 3 → ∀ d ∈ rest.head?, ¬('0' ≤ d ∧ d ≤ '7'))
    : readEscape (digits ++ rest) = ([c], rest) := by
  have hoctal : ∀ d ∈ digits, isOctalDigit d = true := by
    intro d hd
    rcases h.exists_digitChar (by decide) hd with ⟨value, hlt, hvalue⟩
    apply isOctalDigit_of_toLower hlt hvalue
  have hnumber := h.numberOf_eq (by decide) (by decide)
  cases digits with
  | nil => exact absurd rfl h.ne_nil
  | cons d ds =>
    rw [List.forall_mem_cons] at hoctal
    rw [List.length_cons] at hlen hrest
    have hdigits : leadingDigits isOctalDigit 2 (ds ++ rest) = ds := by
      apply leadingDigits_append hoctal.2 (by omega)
      intro hlt e he
      have := hrest (by omega) e he
      simpa [isOctalDigit] using this
    rw [List.cons_append]
    unfold readEscape
    simp [escapeOf?_of_isOctalDigit hoctal.1, hoctal.1, hdigits, hnumber, charOf?_toNat]

theorem hexWidth?_eq_some_iff {l : Char} {width : Nat}
    : hexWidth? l = some width ↔ (l, width) ∈ hexWidths := by
  unfold hexWidth? hexWidths
  split <;> simp_all [eq_comm]

theorem isOctalDigit_of_mem_hexWidths {l : Char} {width : Nat} (h : (l, width) ∈ hexWidths)
    : isOctalDigit l = false := by
  have hletter : ∀ e ∈ hexWidths, isOctalDigit e.1 = false := by decide
  exact hletter _ h

theorem readEscape_digits {l : Char} {width : Nat} {digits rest : List Char}
    (hl : (l, width) ∈ hexWidths)
    (hdigits : leadingDigits isHexDigit width (digits ++ rest) = digits)
    : readEscape (l :: (digits ++ rest))
        =
      ((if digits.length = width then charOf? (numberOf 16 digits) else none).elim
        ('\\' :: l :: digits) ([·]), rest)
      := by
  have hescape : ∀ e ∈ hexWidths, escapeOf? e.1 = none := by decide
  unfold readEscape
  simp only [hescape _ hl, isOctalDigit_of_mem_hexWidths hl, hexWidth?_eq_some_iff.mpr hl, hdigits,
    Bool.false_eq_true, if_false, List.drop_left]
  cases if digits.length = width then charOf? (numberOf 16 digits) else none with
  | none => rfl
  | some c => rfl

theorem readEscape_hex {c letter : Char} {digits rest : List Char} (h : Numeral 16 c.toNat digits)
    (hlen : (letter, digits.length) ∈ hexWidths)
    : readEscape (letter :: (digits ++ rest)) = ([c], rest) := by
  have hhex : ∀ d ∈ digits, isHexDigit d = true := by
    intro d hd
    rcases h.exists_digitChar (by decide) hd with ⟨value, hlt, hvalue⟩
    apply isHexDigit_of_toLower hlt hvalue
  have hdigits : leadingDigits isHexDigit digits.length (digits ++ rest) = digits := by
    apply leadingDigits_append hhex (Nat.le_refl _)
    intro hlt
    omega
  rw [readEscape_digits hlen hdigits, if_pos rfl, h.numberOf_eq (by decide) (by decide), charOf?_toNat,
    Option.elim_some]

theorem unescape_backslash (cs : List Char)
    : unescape ('\\' :: cs) = (readEscape cs).1 ++ unescape (readEscape cs).2 := by
  rw [unescape, if_pos rfl]

theorem unescape_cons_of_ne {c : Char} (h : c ≠ '\\') (cs : List Char)
    : unescape (c :: cs) = c :: unescape cs := by
  rw [unescape, if_neg h]

theorem unescape_append_of_spells {c : Char} {spelling rest : List Char}
    (h : Spells rest c spelling) : unescape (spelling ++ rest) = c :: unescape rest := by
  cases h with
  | self hc => exact unescape_cons_of_ne hc rest
  | letter hletter =>
    rw [List.cons_append, List.singleton_append, unescape_backslash, readEscape_letter hletter]
    rfl
  | octal hnum hlen hrest =>
    rw [List.cons_append, unescape_backslash, readEscape_octal hnum hlen hrest]
    rfl
  | hex hnum hlen =>
    rw [List.cons_append, List.cons_append, unescape_backslash, readEscape_hex hnum hlen]
    rfl

/--
Whatever spelling is chosen for each character of a text, and wherever lines are joined, reading gives
the text.
-/
theorem unescape_of_spelled {cs raw : List Char} (h : Spelled cs raw) : unescape raw = cs := by
  induction h with
  | nil => rw [unescape]
  | join _ ih =>
    rw [unescape_backslash]
    exact ih
  | char hc _ ih => rw [unescape_append_of_spells hc, ih]

/--
An octal number of one digit with a digit behind it, kept apart by a join; the largest octal number; the
last character of all, with digits in both cases; and a digit behind it that is none of these.
-/
theorem unescape_of_spelled_adjacent
    : Spelled ['\x01', '7', Char.ofNat 0x1FF, Char.ofNat 0x10FFFF, 'f', '\\']
          "\\1\\\n7\\777\\U0010fFfFf\\\\\\\n".toList ∧
        unescape "\\1\\\n7\\777\\U0010fFfFf\\\\\\\n".toList
          = ['\x01', '7', Char.ofNat 0x1FF, Char.ofNat 0x10FFFF, 'f', '\\'] := by
  have hend : Spelled ['f', '\\'] "f\\\\\\\n".toList :=
    .char (.self (by decide)) (.char (.letter (by decide)) (.join .nil))
  have hlast : Spells "f\\\\\\\n".toList (Char.ofNat 0x10FFFF) "\\U0010fFfF".toList :=
    .hex ⟨2, by decide⟩ (by decide)
  have hoctal : Spells "\\U0010fFfFf\\\\\\\n".toList (Char.ofNat 0x1FF) "\\777".toList :=
    .octal ⟨0, by decide⟩ (by decide) (absurd · (by decide))
  have hshort : Spells "\\\n7\\777\\U0010fFfFf\\\\\\\n".toList '\x01' "\\1".toList := by
    refine .octal ⟨0, by decide⟩ (by decide) ?_
    rintro _ d ⟨⟩
    decide
  have h : Spelled ['\x01', '7', Char.ofNat 0x1FF, Char.ofNat 0x10FFFF, 'f', '\\']
      "\\1\\\n7\\777\\U0010fFfFf\\\\\\\n".toList :=
    .char hshort (.join (.char (.self (by decide)) (.char hoctal (.char hlast hend))))
  exact ⟨h, unescape_of_spelled h⟩

end CallFlow.Text
