import Timeslice.Number.Double
import Timeslice.Predicate.Comparator

/-!
# Predicates

Comparisons of a column with a literal, joined by AND and OR.
-/

namespace Timeslice

inductive Literal where
  | text (s : String)
  | integer (v : Int64)
  | decimal (v : Double)
  | truth (b : Bool)
  deriving DecidableEq

structure Comparison where
  column : String
  comparator : Comparator
  literal : Literal
  deriving DecidableEq

inductive Predicate where
  | compare (c : Comparison)
  | and (left right : Predicate)
  | or (left right : Predicate)
  deriving DecidableEq

namespace Predicate

/-- The terms joined by AND at the top, left to right. -/
def conjuncts : Predicate → List Predicate
  | and left right => left.conjuncts ++ right.conjuncts
  | p => [p]

def columns : Predicate → List String
  | compare c => [c.column]
  | and left right => left.columns ++ right.columns
  | or left right => left.columns ++ right.columns

def mentions (column : String) (p : Predicate) : Bool :=
  p.columns.contains column

def conjoin : Option Predicate → Predicate → Predicate
  | none, p => p
  | some before, p => and before p

def disjoin : Option Predicate → Predicate → Predicate
  | none, p => p
  | some before, p => or before p

end Predicate

end Timeslice
