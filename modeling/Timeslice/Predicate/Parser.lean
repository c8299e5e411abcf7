import Timeslice.Predicate.Lexer

/-!
# Reading predicates

A predicate is read one token at a time. AND binds tighter than OR and both join to the left, so all
that has to be remembered of an open level is the disjunction of what stands before the last OR
and the conjunction of the terms after it. Each open parenthesis keeps the level around it on a
stack. A comparison has one column and one literal; with the literal first, its comparator is
flipped.
-/

namespace Timeslice

inductive Operand where
  | column (name : String)
  | value (l : Literal)
  deriving DecidableEq

namespace Operand

/-- The names `true` and `false` are literals. -/
def ofName (s : String) : Operand :=
  if Text.sameWord s "true" then value (.truth true)
  else if Text.sameWord s "false" then value (.truth false)
  else column s

def ofToken? : Token → Option Operand
  | .name s => some (ofName s)
  | .text s => some (value (.text s))
  | .integer v => some (value (.integer v))
  | .decimal v => some (value (.decimal v))
  | _ => none

/-- The comparison of two operands, written with the column first. -/
def compare (left : Operand) (comparator : Comparator) (right : Operand) :
    Except SyntaxFault Comparison :=
  match left, right with
  | column name, value l => .ok ⟨name, comparator, l⟩
  | value l, column name => .ok ⟨name, comparator.flip, l⟩
  | column _, column name => .error (.unexpectedToken .literal (.column name))
  | value _, value l => .error (.unexpectedToken .columnName (.value l))

end Operand

namespace PredicateParser

/-- A level that waits for a term. -/
structure Level where
  disjuncts : Option Predicate
  conjuncts : Option Predicate
  deriving DecidableEq

namespace Level

def start : Level := ⟨none, none⟩

end Level

/-- What has been read of the innermost level. -/
inductive Stage where
  | term (level : Level)
  | comparator (level : Level) (left : Operand)
  | operand (level : Level) (left : Operand) (comparator : Comparator)
  /-- After a term; `current` has it as its last conjunct. -/
  | joint (disjuncts : Option Predicate) (current : Predicate)
  deriving DecidableEq

structure State where
  /-- The levels around the innermost one, inner ones first. -/
  outer : List Level
  stage : Stage
  deriving DecidableEq

def State.start : State := ⟨[], .term .start⟩

def Level.close (level : Level) (term : Predicate) : Stage :=
  .joint level.disjuncts (Predicate.conjoin level.conjuncts term)

/-- What the innermost level waits for after a term, if nothing joins on to it. -/
def closing (outer : List Level) : Expectation :=
  if outer.isEmpty then .endOfQuery else .closeParen

def step (state : State) (t : Token) : Except SyntaxFault State :=
  match state.stage with
  | .term level =>
    if t = .openParen then .ok ⟨level :: state.outer, .term .start⟩
    else
      match Operand.ofToken? t with
      | some left => .ok ⟨state.outer, .comparator level left⟩
      | none => .error (.unexpectedToken .columnOrLiteral (.token t))
  | .comparator level left =>
    match t with
    | .comparator c => .ok ⟨state.outer, .operand level left c⟩
    | _ => .error (.unexpectedToken .comparator (.token t))
  | .operand level left comparator =>
    match Operand.ofToken? t with
    | some right =>
      (left.compare comparator right).map fun c => ⟨state.outer, level.close (.compare c)⟩
    | none => .error (.unexpectedToken .columnOrLiteral (.token t))
  | .joint disjuncts current =>
    if t.isKeyword "and" then .ok ⟨state.outer, .term ⟨disjuncts, some current⟩⟩
    else if t.isKeyword "or" then
      .ok ⟨state.outer, .term ⟨some (Predicate.disjoin disjuncts current), none⟩⟩
    else
      match t, state.outer with
      | .closeParen, level :: outer =>
        .ok ⟨outer, level.close (Predicate.disjoin disjuncts current)⟩
      | _, outer => .error (.unexpectedToken (closing outer) (.token t))

/-- The predicate that has been read when the tokens end. -/
def finish (state : State) : Except SyntaxFault Predicate :=
  match state.stage, state.outer with
  | .joint disjuncts current, [] => .ok (Predicate.disjoin disjuncts current)
  | .joint _ _, _ :: _ => .error (.unexpectedEnd .closeParen)
  | .comparator _ _, _ => .error (.unexpectedEnd .comparator)
  | _, _ => .error (.unexpectedEnd .columnOrLiteral)

def run (state : State) : List Token → Except SyntaxFault Predicate
  | [] => finish state
  | t :: rest =>
    match step state t with
    | .ok next => run next rest
    | .error f => .error f

end PredicateParser

namespace Predicate

def ofTokens (ts : List Token) : Except SyntaxFault Predicate :=
  PredicateParser.run .start ts

def read (s : String) : Except SyntaxFault Predicate :=
  (Lexer.read s).bind ofTokens

end Predicate

end Timeslice
