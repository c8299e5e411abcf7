import Timeslice.Cluster.Scan
import Timeslice.Schema.Check

/-!
# Tables of a cluster

What a request does to the tables. A request that is rejected leaves them as they are; of the
others, only CREATE TABLE, STORE and DELETE change them, and each one table only. A table is created
once, under the name in its own schema.
-/

namespace Timeslice

abbrev Tables := List Shelf

namespace Tables

def find? (ts : Tables) (name : String) : Option Shelf :=
  List.find? (fun s => s.schema.name == name) ts

def update (ts : Tables) (shelf : Shelf) : Tables :=
  ts.map fun s => if s.schema.name = shelf.schema.name then shelf else s

def rowCount (ts : Tables) (name : String) : Option Nat :=
  (ts.find? name).map fun s => s.rows.length

def create (ts : Tables) (schema : Schema) : Except Rejection Tables :=
  match schema.check with
  | .error fault => .error ⟨.schema, fault.message⟩
  | .ok () =>
    if (ts.find? schema.name).isSome then
      .error ⟨.schema, "table " ++ schema.name ++ " already exists"⟩
    else .ok (ts ++ [.empty schema])

def mismatch (fault : DataFault) : Rejection :=
  ⟨.typeMismatch, fault.message⟩

def checkRows (schema : Schema) : List Row → Except Rejection Unit
  | [] => .ok ()
  | row :: rest =>
    match schema.checkRow row with
    | .error fault => .error (mismatch fault)
    | .ok () => checkRows schema rest

def store (shelf : Shelf) (rows : List Row) : Except Rejection Shelf :=
  (checkRows shelf.schema rows).map fun _ => rows.foldl Shelf.put shelf

def delete (shelf : Shelf) (key : List Cell) : Except Rejection Shelf :=
  match shelf.schema.checkKey key with
  | .error fault => .error (mismatch fault)
  | .ok () =>
    let key := Key.ofCells key
    if (shelf.find? key).isSome then .ok (shelf.erase key) else .error ⟨.notFound, "notfound"⟩

def fetch (shelf : Shelf) (key : List Cell) : Except Rejection ResultSet :=
  match shelf.schema.checkKey key with
  | .error fault => .error (mismatch fault)
  | .ok () => .ok (shelf.fetch (Key.ofCells key))

def apply (origin : Int64) (ts : Tables) (r : Request) : Except Rejection (Response × Tables) :=
  match r.payload with
  | .createTable schema => (ts.create schema).map fun ts => (.empty, ts)
  | payload =>
    match ts.find? r.table with
    | none => .error ⟨.notActive, r.table ++ " is not an active table"⟩
    | some shelf =>
      match payload with
      | .store rows => (store shelf rows).map fun shelf => (.empty, ts.update shelf)
      | .delete key => (delete shelf key).map fun shelf => (.empty, ts.update shelf)
      | .fetch key => (fetch shelf key).map fun result => (.rows result, ts)
      | .listKeys => .ok (.rows shelf.keys, ts)
      | .query piece => (shelf.scan origin piece).map fun result => (.rows result, ts)
      | .describeTable => .ok (.table shelf.schema, ts)
      | .createTable _ => .ok (.empty, ts)

end Tables

end Timeslice
