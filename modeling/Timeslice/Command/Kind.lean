/-!
# Kinds of commands

The seven things that a client can ask of a cluster.
-/

namespace Timeslice

inductive CommandKind where
  | createTable
  | store
  | fetch
  | delete
  | listKeys
  | query
  | describeTable
  deriving DecidableEq

namespace CommandKind

def text : CommandKind → String
  | createTable => "CreateTable"
  | store => "Store"
  | fetch => "Fetch"
  | delete => "Delete"
  | listKeys => "ListKeys"
  | query => "Query"
  | describeTable => "DescribeTable"

def all : List CommandKind :=
  [createTable, store, fetch, delete, listKeys, query, describeTable]

def ofText? (s : String) : Option CommandKind :=
  all.find? fun k => k.text == s

theorem ofText?_text (k : CommandKind) : ofText? k.text = some k := by
  cases k <;> decide

end CommandKind

end Timeslice
