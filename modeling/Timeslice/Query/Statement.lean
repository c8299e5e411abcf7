import Timeslice.Predicate.Parser

/-!
# Statements

A query text is a statement: a SELECT of columns from a table, or a DESCRIBE of a table. Keywords
may be in any case.
-/

namespace Timeslice

inductive Projection where
  | all
  | columns (names : List String)
  deriving DecidableEq

structure Select where
  table : String
  projection : Projection
  predicate : Option Predicate
  deriving DecidableEq

inductive Statement where
  | select (s : Select)
  | describe (table : String)
  deriving DecidableEq

namespace Statement

def table : Statement → String
  | select s => s.table
  | describe table => table

def name (expected : Expectation) : List Token → Except SyntaxFault (String × List Token)
  | [] => .error (.unexpectedEnd expected)
  | .name s :: rest => .ok (s, rest)
  | t :: _ => .error (.unexpectedToken expected (.token t))

def keyword (expected : Expectation) : List Token → Except SyntaxFault (Unit × List Token)
  | [] => .error (.unexpectedEnd expected)
  | t :: rest =>
    if t.isKeyword expected.text then .ok ((), rest)
    else .error (.unexpectedToken expected (.token t))

def moreNames : List Token → Except SyntaxFault (List String × List Token)
  | .comma :: .name s :: rest => (moreNames rest).map fun r => (s :: r.1, r.2)
  | [.comma] => .error (.unexpectedEnd .columnName)
  | .comma :: t :: _ => .error (.unexpectedToken .columnName (.token t))
  | ts => .ok ([], ts)

def projection : List Token → Except SyntaxFault (Projection × List Token)
  | .star :: rest => .ok (.all, rest)
  | ts => do
    let (first, ts) ← name .columnNameOrStar ts
    let (more, ts) ← moreNames ts
    return (.columns (first :: more), ts)

/-- A WHERE clause takes up all tokens that are left. -/
def condition : List Token → Except SyntaxFault (Option Predicate)
  | [] => .ok none
  | t :: rest =>
    if t.isKeyword "where" then (Predicate.ofTokens rest).map some
    else .error (.unexpectedToken .endOfQuery (.token t))

def selection (ts : List Token) : Except SyntaxFault Select := do
  let (projection, ts) ← projection ts
  let ((), ts) ← keyword .fromKeyword ts
  let (table, ts) ← name .tableName ts
  return ⟨table, projection, ← condition ts⟩

def description (ts : List Token) : Except SyntaxFault String := do
  let (table, ts) ← name .tableName ts
  match ts with
  | [] => return table
  | t :: _ => throw (.unexpectedToken .endOfQuery (.token t))

def ofTokens (ts : List Token) : Except SyntaxFault Statement :=
  match ts with
  | t :: rest =>
    if t.isKeyword "describe" then (description rest).map describe
    else (keyword .selectKeyword ts).bind fun r => (selection r.2).map select
  | [] => .error (.unexpectedEnd .selectKeyword)

def read (s : String) : Except SyntaxFault Statement :=
  (Lexer.read s).bind ofTokens

end Statement

end Timeslice
