import Timeslice.Session.Fanout

/-!
# Coordinating a command

Every command but a query is a single request whose response is the command's. A query first asks
for the schema of its table. A DESCRIBE needs nothing else; a SELECT is planned against the schema
and its pieces are fanned out, unless there are none.
-/

namespace Timeslice

inductive Stage where
  | unsent
  | opened
  | gathering (f : Fanout)
  deriving DecidableEq

abbrev Outcome := Except FailureCause Response

inductive Progress where
  | goesOn (stage : Stage)
  | settled (outcome : Outcome)

namespace Command

def opening (c : Command) : Request where
  table := c.table
  payload :=
    match c with
    | createTable schema => .createTable schema
    | store _ rows => .store rows
    | fetch _ key => .fetch key
    | delete _ key => .delete key
    | listKeys _ => .listKeys
    | query _ _ => .describeTable
    | describeTable _ => .describeTable

def plan (settings : Settings) (schema : Schema) (select : Select) : Progress :=
  match schema.plan settings select with
  | .error fault => .settled (.error (.unplannable fault))
  | .ok plan =>
    if plan.pieces.isEmpty then .settled (.ok (.rows .empty))
    else .goesOn (.gathering (.ofPlan plan))

def afterOpening (settings : Settings) (response : Response) : Command → Progress
  | createTable _ | store _ _ | delete _ _ =>
    .settled (response.asEmpty.map fun _ => .empty)
  | fetch _ _ | listKeys _ => .settled (response.asRows.map .rows)
  | describeTable _ => .settled (response.asTable.map .table)
  | query _ statement =>
    match response.asTable with
    | .error cause => .settled (.error cause)
    | .ok schema =>
      match statement with
      | .describe _ => .settled (.ok (.rows schema.description))
      | .select select => plan settings schema select

def receive (settings : Settings) (c : Command) (stage : Stage) (slot : Nat)
    (reply : Except Rejection Response) : Progress :=
  match stage with
  | .gathering f =>
    match f.receive slot reply with
    | .error cause => .settled (.error cause)
    | .ok f => if f.isComplete then .settled (.ok (.rows f.result)) else .goesOn (.gathering f)
  | _ =>
    match reply with
    | .error rejection => .settled (.error (.rejected rejection))
    | .ok response => c.afterOpening settings response

end Command

end Timeslice
