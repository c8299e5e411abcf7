import Timeslice.Command.Kind
import Timeslice.Data.Fit
import Timeslice.Query.Statement
import Timeslice.Schema.Check

/-!
# Commands

A command is checked when it is built, as far as that can be done without the cluster: its table
has a name, its rows are of one length, its key has no nulls, its schema is well-keyed or its query
can be read.
-/

namespace Timeslice

inductive Command where
  | createTable (schema : Schema)
  | store (table : String) (rows : List Row)
  | fetch (table : String) (key : List Cell)
  | delete (table : String) (key : List Cell)
  | listKeys (table : String)
  | query (text : String) (statement : Statement)
  | describeTable (table : String)
  deriving DecidableEq

namespace Command

def kind : Command → CommandKind
  | createTable _ => .createTable
  | store _ _ => .store
  | fetch _ _ => .fetch
  | delete _ _ => .delete
  | listKeys _ => .listKeys
  | query _ _ => .query
  | describeTable _ => .describeTable

def table : Command → String
  | createTable schema => schema.name
  | store table _ => table
  | fetch table _ => table
  | delete table _ => table
  | listKeys table => table
  | query _ statement => statement.table
  | describeTable table => table

/-- Checks the key of a FETCH or DELETE against a schema. Other commands have no key. -/
def checkKey (schema : Schema) : Command → Except DataFault Unit
  | fetch _ key => schema.checkKey key
  | delete _ key => schema.checkKey key
  | _ => .ok ()

end Command

inductive BuildFault where
  | emptyTableName (kind : CommandKind)
  | invalidSchema (fault : SchemaFault)
  | noRows (table : String)
  | raggedRows (table : String) (row expected actual : Nat)
  | emptyKey (kind : CommandKind) (table : String)
  | nullKeyCell (kind : CommandKind) (table : String) (position : Nat)
  | listingNotAllowed (table : String)
  | unparsableQuery (fault : SyntaxFault)
  deriving DecidableEq

def BuildFault.message : BuildFault → String
  | emptyTableName kind => kind.text ++ " requires a table name"
  | invalidSchema fault => "invalid table definition: " ++ fault.message
  | noRows table => "store into '" ++ table ++ "' has no rows"
  | raggedRows table row expected actual =>
    "store into '" ++ table ++ "': row " ++ Numeral.natText row ++ " has " ++
      Numeral.natText actual ++ " cells, the first row has " ++ Numeral.natText expected
  | emptyKey kind table => kind.text ++ " on '" ++ table ++ "' requires key cells"
  | nullKeyCell kind table position =>
    kind.text ++ " on '" ++ table ++ "': key cell " ++ Numeral.natText position ++ " is null"
  | listingNotAllowed table =>
    "listing keys of '" ++ table ++
      "' walks every partition; call with_allow_listing() to permit it"
  | unparsableQuery fault => "unparsable query: " ++ fault.message

namespace Build

/-- A table name needs a character that is no blank. -/
def checkTable (kind : CommandKind) (table : String) : Except BuildFault Unit :=
  if table.toList.all Text.isBlank then .error (.emptyTableName kind) else .ok ()

def checkRows (table : String) (rows : List Row) : Except BuildFault Unit :=
  match rows with
  | [] => .error (.noRows table)
  | first :: _ =>
    let expected := first.length
    match rows.findIdx? fun row => row.length != expected with
    | none => .ok ()
    | some i => .error (.raggedRows table i expected (rows[i]?.getD []).length)

def checkKey (kind : CommandKind) (table : String) (key : List Cell) : Except BuildFault Unit :=
  if key.isEmpty then .error (.emptyKey kind table)
  else
    match key.findIdx? Cell.isNull with
    | none => .ok ()
    | some i => .error (.nullKeyCell kind table i)

def createTable (schema : Schema) : Except BuildFault Command := do
  schema.check.mapError .invalidSchema
  return .createTable schema

def store (table : String) (rows : List Row) : Except BuildFault Command := do
  checkTable .store table
  checkRows table rows
  return .store table rows

def fetch (table : String) (key : List Cell) : Except BuildFault Command := do
  checkTable .fetch table
  checkKey .fetch table key
  return .fetch table key

def delete (table : String) (key : List Cell) : Except BuildFault Command := do
  checkTable .delete table
  checkKey .delete table key
  return .delete table key

/-- A listing of keys reads all of the table, so it must be allowed. -/
def listKeys (table : String) (allowed : Bool) : Except BuildFault Command := do
  checkTable .listKeys table
  if allowed then return .listKeys table else throw (.listingNotAllowed table)

def query (text : String) : Except BuildFault Command := do
  let statement ← (Statement.read text).mapError .unparsableQuery
  return .query text statement

def describeTable (table : String) : Except BuildFault Command := do
  checkTable .describeTable table
  return .describeTable table

end Build

end Timeslice
