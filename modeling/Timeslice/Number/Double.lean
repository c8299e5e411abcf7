/-!
# Binary64 numbers

A double is its 64 bits. Every finite double is a whole number of units of `2 ^ (-1074)`, so its
order and the rounding of a ratio to the nearest double are exact arithmetic on integers. Infinity
takes the place of `2 ^ 2098` units, above every finite magnitude.
-/

namespace Timeslice

structure Double where
  bits : UInt64
  deriving DecidableEq

namespace Double

/-- The bits without the sign. Magnitudes have the order of their values. -/
def magnitude (d : Double) : Nat :=
  d.bits.toNat % Nat.pow 2 63

def isNegative (d : Double) : Bool :=
  Nat.pow 2 63 ≤ d.bits.toNat

/-- The magnitude of infinity; greater ones are not numbers. -/
def infinite : Nat :=
  2047 * Nat.pow 2 52

def isNaN (d : Double) : Bool :=
  infinite < d.magnitude

def isFinite (d : Double) : Bool :=
  d.magnitude < infinite

def ofMagnitude (negative : Bool) (magnitude : Nat) : Double :=
  ⟨UInt64.ofNat (if negative then Nat.pow 2 63 + magnitude else magnitude)⟩

/-- How far the significand of a magnitude is shifted to the left of the units. -/
def scale (magnitude : Nat) : Nat :=
  magnitude / Nat.pow 2 52 - 1

/-- The significand of a magnitude; at most `52` bits are left where the magnitude is subnormal. -/
def significand (magnitude : Nat) : Nat :=
  magnitude - scale magnitude * Nat.pow 2 52

/-- The value of a magnitude in units of `2 ^ (-1074)`. -/
def unitsOf (magnitude : Nat) : Nat :=
  significand magnitude * Nat.pow 2 (scale magnitude)

def units (d : Double) : Nat :=
  unitsOf d.magnitude

def signedUnits (d : Double) : Int :=
  if d.isNegative then -(d.units : Int) else d.units

def compare? (a b : Double) : Option Ordering :=
  if a.isNaN || b.isNaN then none else some (compare a.signedUnits b.signedUnits)

/-- Equality of values: the two zeros are equal, and what is not a number equals nothing. -/
def sameValue (a b : Double) : Bool :=
  a.compare? b == some .eq

def roundHalfEven (num den : Nat) : Nat :=
  let floor := num / den
  let twice := 2 * (num % den)
  if twice < den then floor
  else if den < twice then floor + 1
  else if floor % 2 = 0 then floor else floor + 1

/-- The magnitude nearest to the ratio `num / den`. Ties go to the even significand, and what is
past the greatest finite magnitude by half a step goes to infinity. -/
def nearest (num den : Nat) : Nat :=
  let scaled := num * Nat.pow 2 1074
  let shift := (scaled / den).log2 - 52
  min infinite (shift * Nat.pow 2 52 + roundHalfEven scaled (den * Nat.pow 2 shift))

def ofRatio (negative : Bool) (num den : Nat) : Double :=
  ofMagnitude negative (nearest num den)

def ofInt (i : Int) : Double :=
  ofRatio (i < 0) i.natAbs 1

def ofDecimal (negative : Bool) (digits places : Nat) : Double :=
  ofRatio negative digits (Nat.pow 10 places)

def mul (a b : Double) : Double :=
  ofRatio (a.isNegative != b.isNegative) (a.units * b.units) (Nat.pow 2 2148)

def isWhole (d : Double) : Bool :=
  d.isFinite && d.units % Nat.pow 2 1074 == 0

end Double

end Timeslice
