/-!
# Comparators

The six comparisons of a cell with a literal.
-/

namespace Timeslice

inductive Comparator where
  | equal
  | notEqual
  | less
  | lessOrEqual
  | greater
  | greaterOrEqual
  deriving DecidableEq

namespace Comparator

/-- The comparator with its sides exchanged. -/
def flip : Comparator → Comparator
  | less => greater
  | lessOrEqual => greaterOrEqual
  | greater => less
  | greaterOrEqual => lessOrEqual
  | equal => equal
  | notEqual => notEqual

def holds : Comparator → Ordering → Bool
  | equal, o => o == .eq
  | notEqual, o => o != .eq
  | less, o => o == .lt
  | lessOrEqual, o => o != .gt
  | greater, o => o == .gt
  | greaterOrEqual, o => o != .lt

def text : Comparator → String
  | equal => "="
  | notEqual => "!="
  | less => "<"
  | lessOrEqual => "<="
  | greater => ">"
  | greaterOrEqual => ">="

theorem holds_flip (c : Comparator) (o : Ordering) : c.flip.holds o = c.holds o.swap := by
  cases c <;> cases o <;> rfl

end Comparator

end Timeslice
