import Timeslice.Text.LetterRanges
import Timeslice.Text.NumeralRanges

/-!
# Character classes

Blanks, letters and numerals are the Unicode classes; digits and the case of keywords are ASCII.
-/

namespace Timeslice.Text

/-- The characters with the Unicode property `White_Space`. -/
def isBlank (c : Char) : Bool :=
  (0x09 ≤ c.val && c.val ≤ 0x0D) || c.val == 0x20 || c.val == 0x85 || c.val == 0xA0 ||
  c.val == 0x1680 || (0x2000 ≤ c.val && c.val ≤ 0x200A) || c.val == 0x2028 || c.val == 0x2029 ||
  c.val == 0x202F || c.val == 0x205F || c.val == 0x3000

def inRanges (ranges : List (Nat × Nat)) (c : Char) : Bool :=
  ranges.any fun r => r.1 ≤ c.toNat && c.toNat ≤ r.2

/-- The characters with the Unicode property `Alphabetic`. -/
def isLetter (c : Char) : Bool :=
  if c.toNat < 0x80 then c.isAlpha else inRanges letterRanges c

/-- The characters of the Unicode categories `Nd`, `Nl` and `No`. -/
def isNumeral (c : Char) : Bool :=
  if c.toNat < 0x80 then c.isDigit else inRanges numeralRanges c

def startsName (c : Char) : Bool :=
  isLetter c || c == '_'

def continuesName (c : Char) : Bool :=
  isLetter c || isNumeral c || c == '_'

def trimLeft (cs : List Char) : List Char :=
  cs.dropWhile isBlank

def trim (cs : List Char) : List Char :=
  (trimLeft (trimLeft cs).reverse).reverse

/-- Equality up to the case of ASCII letters. -/
def sameWord (a b : String) : Bool :=
  a.toList.map Char.toLower == b.toList.map Char.toLower

end Timeslice.Text
