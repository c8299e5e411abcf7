import Timeslice.Schema.Basic

/-!
# Table definitions as text

The `CREATE TABLE` statement of a schema. Names stand in it as they are, without quotes.
-/

namespace Timeslice.Schema

def columnClause (c : TableColumn) : String :=
  c.name ++ " " ++ String.ofList (c.type.text.toList.map Char.toUpper) ++
    if c.nullable then "" else " NOT NULL"

def partitionClause (c : TableColumn) : String :=
  match c.quantum? with
  | some q =>
    "QUANTUM(" ++ c.name ++ ", " ++ Numeral.natText q.interval.toNat ++ ", '" ++
      String.ofList [q.unit.code] ++ "')"
  | none => c.name

def listed (clauses : List String) : String :=
  String.intercalate ", " clauses

def ddl (s : Schema) : String :=
  "CREATE TABLE " ++ s.name ++ " (" ++ listed (s.columns.map columnClause) ++
    ", PRIMARY KEY ((" ++ listed (s.partitionKey.map partitionClause) ++ "), " ++
    listed (s.localKey.map (·.name)) ++ "))"

end Timeslice.Schema
