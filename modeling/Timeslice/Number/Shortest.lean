import Timeslice.Number.Double
import Timeslice.Number.Numeral

/-!
# Decimal text of doubles

The text of a double has the fewest digits that read back as the same double, the nearest of those
(the greater magnitude of two that are as near), and never an exponent. Whole numbers have a second
form with all their digits and one decimal place.
-/

namespace Timeslice.Double

structure Decimal where
  digits : Nat
  exponent : Int

/-- The numbers that round to a magnitude, in quarters of a unit: from halfway to the magnitude
below up to halfway to the one above. The ends belong to it if the significand is even. -/
structure Basin where
  low : Nat
  value : Nat
  high : Nat
  closed : Bool

def basin (magnitude : Nat) : Basin :=
  let s := scale magnitude
  let m := significand magnitude
  let value := 4 * unitsOf magnitude
  let below := if m = Nat.pow 2 52 ∧ 0 < s then Nat.pow 2 s else 2 * Nat.pow 2 s
  { low := value - below, value, high := value + 2 * Nat.pow 2 s, closed := m % 2 == 0 }

def Basin.holds (b : Basin) (num den : Nat) : Bool :=
  if b.closed then b.low * den ≤ num && num ≤ b.high * den
  else b.low * den < num && num < b.high * den

/-- The step `10 ^ exponent` in quarter units, as a numerator and a denominator. -/
def step (exponent : Int) : Nat × Nat :=
  (Nat.pow 10 exponent.toNat * Nat.pow 2 1076, Nat.pow 10 (-exponent).toNat)

/-- Of the two multiples of `10 ^ exponent` beside the value, the nearest one that is in the
basin. -/
def Basin.onGrid (b : Basin) (exponent : Int) : Option Nat :=
  let num := (step exponent).1
  let den := (step exponent).2
  let under := b.value * den / num
  let hasUnder := b.holds (under * num) den
  let hasOver := b.holds ((under + 1) * num) den
  if hasUnder && hasOver then
    if b.value * den - under * num < (under + 1) * num - b.value * den then some under
    else some (under + 1)
  else if hasUnder then some under
  else if hasOver then some (under + 1)
  else none

/-- The first hit on the grids `10 ^ (n - 1074)` for decreasing `n`. On the last grid, where every
value is a multiple of the step, the value itself is the hit. -/
def Basin.coarsest (b : Basin) : Nat → Decimal
  | 0 => ⟨b.value / 4 * Nat.pow 5 1074, -1074⟩
  | n + 1 =>
    match b.onGrid (n + 1 - 1074) with
    | some digits => ⟨digits, n + 1 - 1074⟩
    | none => b.coarsest n

/-- The shortest decimal that reads back as the magnitude. No finite magnitude reaches
`10 ^ 309`, so the search starts there. -/
def shortest (magnitude : Nat) : Decimal :=
  (basin magnitude).coarsest (1074 + 309)

def Decimal.positional (d : Decimal) : List Char :=
  let ds := Numeral.digits d.digits
  if 0 ≤ d.exponent then ds ++ List.replicate d.exponent.toNat '0'
  else
    let places := (-d.exponent).toNat
    if places < ds.length then
      ds.take (ds.length - places) ++ '.' :: ds.drop (ds.length - places)
    else '0' :: '.' :: (List.replicate (places - ds.length) '0' ++ ds)

def signed (d : Double) (cs : List Char) : List Char :=
  if d.isNegative then '-' :: cs else cs

def chars (d : Double) : List Char :=
  if d.isNaN then "NaN".toList
  else if !d.isFinite then d.signed "inf".toList
  else if d.magnitude = 0 then d.signed ['0']
  else d.signed (shortest d.magnitude).positional

def text (d : Double) : String :=
  String.ofList d.chars

/-- The text with which a literal is written: whole numbers keep one decimal place, so that they
do not read as integers. -/
def literalChars (d : Double) : List Char :=
  if d.isWhole then d.signed (Numeral.digits (d.units / Nat.pow 2 1074) ++ ['.', '0']) else d.chars

end Timeslice.Double
