import CallFlow.Text.Word

/-!
The alphabet of the token patterns.

No pattern tells two characters apart unless one of them is ASCII or they differ in how they may
stand in a word, so the characters fall into a few classes, here called letters: one per ASCII
character, and one each for the other characters that start a word, that continue a word, that are
blanks of no width, and that are none of these. A set of letters is a bit mask.
-/
namespace CallFlow.Lexer

abbrev Letter := Nat

namespace Letter

def wordStart : Letter := 128
def wordPart : Letter := 129
def zeroWidth : Letter := 130
def other : Letter := 131

def count : Nat := 132

/--
U+FEFF, U+2060 and U+200B, which are skipped like blanks.
-/
def isZeroWidth (c : Char) : Bool :=
  c.toNat == 0xFEFF || c.toNat == 0x2060 || c.toNat == 0x200B

def ofChar (c : Char) : Letter :=
  if c.toNat < 128 then c.toNat
  else if isZeroWidth c then zeroWidth
  else if Text.isWordStart c then wordStart
  else if Text.isWordPart c then wordPart
  else other

end Letter

structure LetterSet where
  mask : Nat
deriving DecidableEq, Repr, Inhabited, Hashable

namespace LetterSet

def empty : LetterSet := ⟨0⟩
def single (a : Letter) : LetterSet := ⟨1 <<< a⟩
def union (s t : LetterSet) : LetterSet := ⟨s.mask ||| t.mask⟩
def inter (s t : LetterSet) : LetterSet := ⟨s.mask &&& t.mask⟩
def diff (s t : LetterSet) : LetterSet := ⟨s.mask ^^^ (s.mask &&& t.mask)⟩
def isEmpty (s : LetterSet) : Bool := s.mask == 0
def contains (s : LetterSet) (a : Letter) : Bool := s.mask.testBit a

instance : Union LetterSet := ⟨union⟩

def ofString (s : String) : LetterSet :=
  s.toList.foldl (fun acc c => acc ∪ single c.toNat) empty

def range (lo hi : Char) : LetterSet :=
  (List.range (hi.toNat + 1 - lo.toNat)).foldl (fun acc i => acc ∪ single (lo.toNat + i)) empty

/--
All letters but those of `s`; NUL is in no complement.
-/
def compl (s : LetterSet) : LetterSet :=
  diff ⟨Nat.pow 2 Letter.count - 2⟩ s

end LetterSet

end CallFlow.Lexer
