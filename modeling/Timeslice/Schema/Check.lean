import Timeslice.Schema.Basic

/-!
# Well-keyed schemas

A schema can be stored if its names are usable, the ordinals of each key run 1, 2, 3 without gaps
or repeats, the partition key begins the local key, key columns are never null and of a keyable
type, and exactly one quantum sits on a timestamp of the partition key. The first flaw, in the order
of the checks here, is the one reported.
-/

namespace Timeslice

inductive KeyKind where
  | partitionKey
  | localKey
  deriving DecidableEq

def KeyKind.text : KeyKind → String
  | partitionKey => "partition"
  | localKey => "local"

inductive SchemaFlaw where
  | emptyTableName
  | noColumns
  /-- The position counts from zero. -/
  | emptyColumnName (position : Nat)
  | duplicateColumn (column : String)
  | missingLocalKey
  | missingPartitionKey
  | nonContiguousOrdinals (key : KeyKind)
  /-- The position in the local key counts from one. -/
  | notLeadingLocalKey (column : String) (position : Nat)
  | nullableKeyColumn (column : String)
  | unsupportedKeyType (column : String) (type : ColumnType)
  | missingQuantum
  | multipleQuanta (count : Nat)
  | misplacedQuantum (column : String)
  | zeroQuantum
  deriving DecidableEq

structure SchemaFault where
  table : String
  flaw : SchemaFlaw
  deriving DecidableEq

def SchemaFault.message (f : SchemaFault) : String :=
  let table := "table '" ++ f.table ++ "'"
  match f.flaw with
  | .emptyTableName => "table name must not be empty"
  | .noColumns => table ++ " has no columns"
  | .emptyColumnName position =>
    table ++ " has a column with an empty name at position " ++ Numeral.natText position
  | .duplicateColumn column => table ++ " defines column '" ++ column ++ "' more than once"
  | .missingLocalKey => table ++ " has no local key columns"
  | .missingPartitionKey => table ++ " has no partition key columns"
  | .nonContiguousOrdinals key =>
    key.text ++ " key ordinals of " ++ table ++ " are not contiguous from 1"
  | .notLeadingLocalKey column position =>
    "partition key column '" ++ column ++ "' of " ++ table ++ " must be local key column #" ++
      Numeral.natText position
  | .nullableKeyColumn column =>
    "key column '" ++ column ++ "' of " ++ table ++ " must not be nullable"
  | .unsupportedKeyType column type =>
    "key column '" ++ column ++ "' of " ++ table ++ " has type " ++ type.text ++
      ", which cannot be part of a key"
  | .missingQuantum => table ++ " has no quantum on its partition key"
  | .multipleQuanta count =>
    table ++ " declares " ++ Numeral.natText count ++ " quanta; exactly one is allowed"
  | .misplacedQuantum column =>
    "quantum of " ++ table ++ " is on column '" ++ column ++
      "', which is not a timestamp partition key column"
  | .zeroQuantum => "quantum of " ++ table ++ " has a zero interval"

namespace Schema

def nameFlaw? (s : Schema) : Option SchemaFlaw :=
  if s.name = "" then some .emptyTableName
  else if s.columns.isEmpty then some .noColumns
  else none

/-- Every column needs a name that no column before it has. -/
def columnNameFlaw? (position : Nat) (seen : List String) :
    List TableColumn → Option SchemaFlaw
  | [] => none
  | c :: rest =>
    if c.name = "" then some (.emptyColumnName position)
    else if c.name ∈ seen then some (.duplicateColumn c.name)
    else columnNameFlaw? (position + 1) (c.name :: seen) rest

def ordinalsRun (ordinal : TableColumn → Option UInt32) (key : List TableColumn) : Bool :=
  key.map (fun c => (ordinal c).map UInt32.toNat) == (List.range key.length).map fun i => some (i + 1)

def ordinalFlaw? (s : Schema) : Option SchemaFlaw :=
  if s.localKey.isEmpty then some .missingLocalKey
  else if s.partitionKey.isEmpty then some .missingPartitionKey
  else if !ordinalsRun TableColumn.localOrdinal? s.localKey then
    some (.nonContiguousOrdinals .localKey)
  else if !ordinalsRun TableColumn.partitionOrdinal? s.partitionKey then
    some (.nonContiguousOrdinals .partitionKey)
  else none

/-- Each column of the partition key has the same place in the local key. -/
def leadFlaw? (position : Nat) :
    (partitionKey localKey : List TableColumn) → Option SchemaFlaw
  | [], _ => none
  | c :: _, [] => some (.notLeadingLocalKey c.name position)
  | c :: partitionKey, l :: localKey =>
    if l.name = c.name then leadFlaw? (position + 1) partitionKey localKey
    else some (.notLeadingLocalKey c.name position)

def keyColumnFlaw? (c : TableColumn) : Option SchemaFlaw :=
  if c.nullable then some (.nullableKeyColumn c.name)
  else if !c.type.isKeyable then some (.unsupportedKeyType c.name c.type)
  else none

def quantumFlaw? (s : Schema) : Option SchemaFlaw :=
  match s.columns.filter fun c => c.quantum?.isSome with
  | [] => some .missingQuantum
  | [c] =>
    if !(c.inPartitionKey && c.type == .timestamp) then some (.misplacedQuantum c.name)
    else if !c.quantum?.any (0 < ·.interval) then some .zeroQuantum
    else none
  | many => some (.multipleQuanta many.length)

def flaw? (s : Schema) : Option SchemaFlaw :=
  s.nameFlaw? <|> columnNameFlaw? 0 [] s.columns <|> s.ordinalFlaw? <|>
    leadFlaw? 1 s.partitionKey s.localKey <|>
    (s.localKey ++ s.partitionKey).findSome? keyColumnFlaw? <|> s.quantumFlaw?

def check (s : Schema) : Except SchemaFault Unit :=
  match s.flaw? with
  | none => .ok ()
  | some flaw => .error ⟨s.name, flaw⟩

def quantum (s : Schema) : Except SchemaFault Quantum :=
  match s.quantum? with
  | some q => .ok q
  | none => .error ⟨s.name, .missingQuantum⟩

/-- The width of the table's quantum in milliseconds. -/
def quantumWidth (s : Schema) : Except SchemaFault Int64 :=
  s.quantum.map (·.width)

theorem check_eq_ok_iff (s : Schema) : s.check = .ok () ↔ s.flaw? = none := by
  unfold check
  split <;> simp_all

end Schema

end Timeslice
