import Timeslice.Command.Kind
import Timeslice.Data.ResultSet
import Timeslice.Query.Piece

/-!
# Exchanges with the cluster

A client sends requests to the cluster, one for each table or piece that it wants something of. A
request is answered by a response or by a rejection.
-/

namespace Timeslice

inductive FailureKind where
  | notFound
  | schema
  | typeMismatch
  | wrongTypeAccess
  | outOfOrderWrite
  | notActive
  | securityRequired
  | unparsablePredicate
  | transport
  | cancelled
  deriving DecidableEq

namespace FailureKind

def text : FailureKind → String
  | notFound => "not found"
  | schema => "schema"
  | typeMismatch => "type mismatch"
  | wrongTypeAccess => "wrong type access"
  | outOfOrderWrite => "out of order write"
  | notActive => "not active"
  | securityRequired => "security required"
  | unparsablePredicate => "unparsable predicate"
  | transport => "transport"
  | cancelled => "cancelled"

def all : List FailureKind :=
  [notFound, schema, typeMismatch, wrongTypeAccess, outOfOrderWrite, notActive, securityRequired,
    unparsablePredicate, transport, cancelled]

def ofText? (s : String) : Option FailureKind :=
  all.find? fun k => k.text == s

end FailureKind

inductive Payload where
  | createTable (schema : Schema)
  | store (rows : List Row)
  | fetch (key : List Cell)
  | delete (key : List Cell)
  | listKeys
  | query (piece : Piece)
  | describeTable
  deriving DecidableEq

def Payload.kind : Payload → CommandKind
  | createTable _ => .createTable
  | store _ => .store
  | fetch _ => .fetch
  | delete _ => .delete
  | listKeys => .listKeys
  | query _ => .query
  | describeTable => .describeTable

structure Request where
  table : String
  payload : Payload
  deriving DecidableEq

def Request.kind (r : Request) : CommandKind :=
  r.payload.kind

/-- The span of a query request, if it has one. -/
def Request.span? (r : Request) : Option Span :=
  match r.payload with
  | .query piece => piece.span
  | _ => none

structure Rejection where
  kind : FailureKind
  message : String
  deriving DecidableEq

inductive Response where
  | empty
  | rows (result : ResultSet)
  | table (schema : Schema)
  deriving DecidableEq

inductive Shape where
  | empty
  | rows
  | table
  deriving DecidableEq

def Shape.text : Shape → String
  | empty => "empty response"
  | rows => "rows"
  | table => "table definition"

def Response.shape : Response → Shape
  | empty => .empty
  | rows _ => .rows
  | table _ => .table

def CommandKind.shape : CommandKind → Shape
  | createTable | store | delete => .empty
  | fetch | listKeys | query => .rows
  | describeTable => .table

end Timeslice
