import Timeslice.Number.Double
import Timeslice.Number.Numeral

/-!
# JSON numbers

A number literal keeps its digits on both sides of the point. Its magnitude is estimated from the
leading digits that fit an unsigned 64-bit word: the word and its power of ten are rounded to
doubles, and so is their product. Near the end of the range of doubles the estimate can fall on
either side of it, whatever the exact value is. Main statement: a written integer reads back.
-/

namespace Timeslice

structure JsonNumber where
  negative : Bool
  whole : List Char
  fraction : Option (List Char)
  power : Option Int
  deriving DecidableEq

namespace JsonNumber

def ofInt (i : Int) : JsonNumber :=
  ⟨i < 0, Numeral.digits i.natAbs, none, none⟩

def isPlain (n : JsonNumber) : Bool :=
  n.fraction.isNone && n.power.isNone

/-- The integer that a plain literal stands for. Negative zero stands for none. -/
def toInt? (n : JsonNumber) : Option Int :=
  let magnitude := Numeral.value n.whole
  if !n.isPlain || (n.negative && magnitude == 0) then none
  else if n.negative then some (-magnitude) else some magnitude

/-- Appends digits to a number as long as it fits an unsigned 64-bit word. The digits from the
first one that does not fit are left. -/
def fill (word : Nat) : List Char → Nat × List Char
  | [] => (word, [])
  | c :: cs =>
    let longer := 10 * word + Numeral.digitValue c
    if longer < UInt64.size then fill longer cs else (word, c :: cs)

/-- The leading digits of a literal and the power of ten by which they are multiplied. A digit left
before the point raises the power, a digit taken after the point lowers it. After the point the
digits are tried anew, even if some before it are left. -/
def leading (n : JsonNumber) : Nat × Int :=
  let decimals := n.fraction.getD []
  let (word, left) := fill 0 n.whole
  let (word, unread) := fill word decimals
  (word, n.power.getD 0 + left.length + unread.length - decimals.length)

/-- Whether the estimate of the magnitude is past the range of doubles. The greatest power of ten
in the range is `10 ^ 308`. -/
def isTooLarge (n : JsonNumber) : Bool :=
  let (word, exponent) := n.leading
  if word = 0 ∨ exponent < 0 then false
  else if 308 < exponent then true
  else !((Double.ofInt word).mul (Double.ofInt (Nat.pow 10 exponent.toNat))).isFinite

theorem toInt?_ofInt (i : Int) : (ofInt i).toInt? = some i := by
  simp only [ofInt, toInt?, isPlain, Numeral.value_digits, Option.isNone_none, Bool.and_self]
  by_cases h : i < 0
  · have hne : i.natAbs ≠ 0 := by omega
    have hneg : -(i.natAbs : Int) = i := by omega
    simp only [h, decide_true, Bool.not_true, Bool.true_and, Bool.false_or, beq_iff_eq, hne,
      if_false, if_true, hneg]
  · have hpos : (i.natAbs : Int) = i := by omega
    simp only [h, decide_false, Bool.not_true, Bool.false_and, Bool.or_false, Bool.false_eq_true,
      if_false, hpos]

end JsonNumber

end Timeslice
