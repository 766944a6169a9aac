/-!
Bytes that need not be text.

Bytes are read as UTF-8 as far as they are. Where they are not, `none` stands for the longest piece
that could begin a character, or for one byte.
-/
namespace CallFlow.Text

abbrev RawText := List (Option Char)

/--
What the first byte of a character says: the bits it gives, the bounds of the byte after it, and how many
bytes follow that one. Bounds that are narrower than usual keep out code points that have a shorter form,
surrogates and numbers that are too large.
-/
def leadByte? (b : Nat) : Option (Nat × Nat × Nat × Nat) :=
  if 0xC2 ≤ b ∧ b ≤ 0xDF then some (b - 0xC0, 0x80, 0xBF, 0)
  else if b = 0xE0 then some (0, 0xA0, 0xBF, 1)
  else if b = 0xED then some (0xD, 0x80, 0x9F, 1)
  else if 0xE1 ≤ b ∧ b ≤ 0xEF then some (b - 0xE0, 0x80, 0xBF, 1)
  else if b = 0xF0 then some (0, 0x90, 0xBF, 2)
  else if 0xF1 ≤ b ∧ b ≤ 0xF3 then some (b - 0xF0, 0x80, 0xBF, 2)
  else if b = 0xF4 then some (4, 0x80, 0x8F, 2)
  else none

def readTail (code lo hi : Nat) : Nat → List UInt8 → Option Nat × List UInt8
  | _, [] => (none, [])
  | more, b :: bs =>
    if lo ≤ b.toNat ∧ b.toNat ≤ hi then
      let code := code * 64 + b.toNat % 64
      match more with
      | 0 => (some code, bs)
      | more + 1 => readTail code 0x80 0xBF more bs
    else (none, b :: bs)

def readChar (b : UInt8) (bs : List UInt8) : Option Char × List UInt8 :=
  if b.toNat < 0x80 then (some (Char.ofNat b.toNat), bs)
  else match leadByte? b.toNat with
    | none => (none, bs)
    | some (code, lo, hi, more) =>
      match readTail code lo hi more bs with
      | (some code, rest) => (some (Char.ofNat code), rest)
      | (none, rest) => (none, rest)

theorem readTail_length_le (code lo hi more : Nat) (bs : List UInt8) :
    (readTail code lo hi more bs).2.length ≤ bs.length := by
  induction bs generalizing code lo hi more with
  | nil => simp [readTail]
  | cons b bs ih =>
    unfold readTail
    dsimp only
    split
    . split
      . simp
      . exact Nat.le_succ_of_le (ih _ _ _ _)
    . simp

theorem readChar_length_le (b : UInt8) (bs : List UInt8) :
    (readChar b bs).2.length ≤ bs.length := by
  unfold readChar
  split
  . simp
  . split
    . simp
    . rename_i code lo hi more _
      have h := readTail_length_le code lo hi more bs
      split <;> simp_all

def decode : List UInt8 → RawText
  | [] => []
  | b :: bs => (readChar b bs).1 :: decode (readChar b bs).2
termination_by bs => bs.length
decreasing_by
  have := readChar_length_le b bs
  simp; omega

def RawText.ofString (s : String) : RawText := s.toList.map some

def RawText.toString? (t : RawText) : Option String := (t.mapM id).map String.ofList

def RawText.display (t : RawText) : String :=
  String.ofList (t.map fun c => c.getD (Char.ofNat 0xFFFD))

end CallFlow.Text
