import Timeslice.Predicate.Printer
import Timeslice.Time.Span
import Timeslice.Time.Text

/-!
# Bounds on the time column

The terms that a predicate joins by AND are split into bounds on the time column, which together
give a half-open span, and a residual of all other terms in their order. The time column may stand
in no other place. Bounds of one side tighten each other.
-/

namespace Timeslice

inductive Side where
  | lower
  | upper
  deriving DecidableEq

def Side.text : Side → String
  | lower => "lower"
  | upper => "upper"

inductive BoundFlaw where
  | timeColumnInDisjunction
  | missingTimeBound (side : Side)
  | unsupportedTimeOperator (comparator : Comparator)
  | invalidTimeLiteral (literal : Literal)
  | timeBoundOverflow
  deriving DecidableEq

structure BoundFault where
  column : String
  flaw : BoundFlaw
  deriving DecidableEq

def BoundFault.message (f : BoundFault) : String :=
  let column := "column '" ++ f.column ++ "'"
  match f.flaw with
  | .timeColumnInDisjunction => "time " ++ column ++ " may only be constrained by top-level AND terms"
  | .missingTimeBound side => "time " ++ column ++ " has no " ++ side.text ++ " bound"
  | .unsupportedTimeOperator comparator =>
    "operator " ++ comparator.text ++ " cannot bound time " ++ column
  | .invalidTimeLiteral literal =>
    "'" ++ literal.render ++ "' is not a timestamp for " ++ column
  | .timeBoundOverflow => "time bound on " ++ column ++ " overflows"

structure TimeSplit where
  span : Option Span
  residual : Option Predicate
  deriving DecidableEq

namespace Literal

/-- The timestamp that a literal stands for. -/
def millis? : Literal → Option Int64
  | integer v => some v
  | text s => DateText.millis? s
  | _ => none

end Literal

/-- The bounds and the residual of the terms read so far. -/
structure Bounds where
  lower : Option Int64
  upper : Option Int64
  residual : Option Predicate
  deriving DecidableEq

namespace Bounds

def unbounded : Bounds := ⟨none, none, none⟩

def raise (b : Bounds) (instant : Int64) : Bounds :=
  { b with lower := some (b.lower.elim instant fun l => max l instant) }

def cap (b : Bounds) (instant : Int64) : Bounds :=
  { b with upper := some (b.upper.elim instant fun u => min u instant) }

def after (instant : Int64) : Except BoundFlaw Int64 :=
  match Word.next? instant with
  | some v => .ok v
  | none => .error .timeBoundOverflow

def restrict (b : Bounds) (comparator : Comparator) (instant : Int64) : Except BoundFlaw Bounds :=
  match comparator with
  | .greater => (after instant).map b.raise
  | .greaterOrEqual => .ok (b.raise instant)
  | .less => .ok (b.cap instant)
  | .lessOrEqual => (after instant).map b.cap
  | .equal => (after instant).map (b.raise instant).cap
  | .notEqual => .error (.unsupportedTimeOperator .notEqual)

def add (column : String) (b : Bounds) (term : Predicate) : Except BoundFlaw Bounds :=
  match term with
  | .compare c =>
    if c.column = column then
      match c.literal.millis? with
      | some instant => b.restrict c.comparator instant
      | none => .error (.invalidTimeLiteral c.literal)
    else .ok { b with residual := some (.conjoin b.residual term) }
  | _ =>
    if term.mentions column then .error .timeColumnInDisjunction
    else .ok { b with residual := some (.conjoin b.residual term) }

def addAll (column : String) (b : Bounds) : List Predicate → Except BoundFlaw Bounds
  | [] => .ok b
  | term :: rest =>
    match b.add column term with
    | .ok b => addAll column b rest
    | .error flaw => .error flaw

/-- The span needs both of its bounds, or there is none. -/
def close (b : Bounds) : Except BoundFlaw TimeSplit :=
  match b.lower, b.upper with
  | some start, some stop => .ok ⟨some ⟨start, stop⟩, b.residual⟩
  | none, none => .ok ⟨none, b.residual⟩
  | some _, none => .error (.missingTimeBound .upper)
  | none, some _ => .error (.missingTimeBound .lower)

end Bounds

namespace Predicate

def splitTime (column : String) (p : Predicate) : Except BoundFault TimeSplit :=
  match Bounds.unbounded.addAll column p.conjuncts with
  | .error flaw => .error ⟨column, flaw⟩
  | .ok b =>
    match b.close with
    | .ok split => .ok split
    | .error flaw => .error ⟨column, flaw⟩

end Predicate

end Timeslice
