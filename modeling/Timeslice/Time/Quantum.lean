import Timeslice.Number.Word
import Timeslice.Text.Class

/-!
# Quanta

Rows are laid out on disk by quantum, a whole number of seconds, minutes, hours or days. A quantum
is specified as an interval and a unit, `15m` or `2 hours`, and printed with the unit's code.
-/

namespace Timeslice

inductive TimeUnit where
  | second
  | minute
  | hour
  | day
  deriving DecidableEq

namespace TimeUnit

def code : TimeUnit → Char
  | second => 's'
  | minute => 'm'
  | hour => 'h'
  | day => 'd'

def millis : TimeUnit → Nat
  | second => 1000
  | minute => 60 * 1000
  | hour => 60 * 60 * 1000
  | day => 24 * 60 * 60 * 1000

def names : TimeUnit → List String
  | second => ["s", "sec", "secs", "second", "seconds"]
  | minute => ["m", "min", "mins", "minute", "minutes"]
  | hour => ["h", "hr", "hrs", "hour", "hours"]
  | day => ["d", "day", "days"]

/-- The unit with this spelling, in any ASCII case. -/
def ofName? (name : String) : Option TimeUnit :=
  [second, minute, hour, day].find? fun u => u.names.any (Text.sameWord name)

end TimeUnit

structure Quantum where
  interval : UInt32
  unit : TimeUnit
  deriving DecidableEq

/-- Why a text specifies no quantum. The text is given without the blanks around it. -/
inductive SpecFault where
  | empty
  | missingInterval (spec : String)
  | missingUnit (spec : String)
  | intervalOutOfRange (spec : String)
  | unknownUnit (spec unit : String)
  deriving DecidableEq

def SpecFault.message : SpecFault → String
  | empty => "quantum spec is empty"
  | missingInterval spec => "quantum spec '" ++ spec ++ "' is missing a numeric interval"
  | missingUnit spec =>
    "quantum spec '" ++ spec ++ "' is missing a unit suffix (expected s|m|h|d)"
  | intervalOutOfRange spec =>
    "quantum interval in '" ++ spec ++ "' must be between 1 and 4294967295"
  | unknownUnit spec unit =>
    "unknown quantum unit '" ++ unit ++ "' in '" ++ spec ++ "' (expected s|m|h|d)"

namespace Quantum

/-- The width in milliseconds. -/
def width (q : Quantum) : Int64 :=
  Int64.ofInt (q.interval.toNat * q.unit.millis : Nat)

theorem toInt_width (q : Quantum) : q.width.toInt = (q.interval.toNat * q.unit.millis : Nat) := by
  have hi := q.interval.toNat_lt
  have hu : q.unit.millis ≤ 86400000 := by cases q.unit <;> decide
  have hm : q.interval.toNat * q.unit.millis ≤ 4294967295 * 86400000 :=
    Nat.mul_le_mul (by omega) hu
  rw [width, Int64.toInt_ofInt]
  exact Int.bmod_eq_of_le (by simp [Int64.size]; omega) (by simp [Int64.size]; omega)

def text (q : Quantum) : String :=
  String.ofList (Numeral.digits q.interval.toNat ++ [q.unit.code])

/-- Reads an interval between 1 and 4294967295 and a unit, with blanks allowed around both. -/
def read (s : String) : Except SpecFault Quantum :=
  let cs := Text.trim s.toList
  let spec := String.ofList cs
  let digits := cs.takeWhile Numeral.isDigit
  let unit := Text.trim (cs.dropWhile Numeral.isDigit)
  if cs.isEmpty then .error .empty
  else if digits.isEmpty then .error (.missingInterval spec)
  else if unit.isEmpty then .error (.missingUnit spec)
  else
    let n := Numeral.value digits
    if n = 0 ∨ UInt32.size ≤ n then .error (.intervalOutOfRange spec)
    else
      match TimeUnit.ofName? (String.ofList unit) with
      | some u => .ok ⟨UInt32.ofNat n, u⟩
      | none => .error (.unknownUnit spec (String.ofList unit))

end Quantum

end Timeslice
