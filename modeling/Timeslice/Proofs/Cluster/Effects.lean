import Timeslice.Proofs.Cluster.Refinement

/-!
# What a request does to the tables

A request that arrives, waits or is given up changes no table. When it is answered, it is rejected
for one of the listed reasons and changes nothing, or it only reads, or it changes the one table that
it targets.
-/

namespace Timeslice

/-- The table that a request is about. A table is created under the name in its schema, whatever
table the request names. -/
def Request.target (r : Request) : String :=
  match r.payload with
  | .createTable schema => schema.name
  | _ => r.table

namespace Tables

/-- Why tables reject a request, and with what. -/
inductive Rejects (origin : Int64) (ts : Tables) : Request → Rejection → Prop where
  | invalid {table : String} {schema : Schema} {fault : SchemaFault}
      (hcheck : schema.check = .error fault) :
      Rejects origin ts ⟨table, .createTable schema⟩ ⟨.schema, fault.message⟩
  | duplicate {table : String} {schema : Schema} {shelf : Shelf} (hcheck : schema.check = .ok ())
      (hfind : ts.find? schema.name = some shelf) :
      Rejects origin ts ⟨table, .createTable schema⟩
        ⟨.schema, "table " ++ schema.name ++ " already exists"⟩
  | inactive {r : Request} (hcreate : r.kind ≠ .createTable) (hfind : ts.find? r.table = none) :
      Rejects origin ts r ⟨.notActive, r.table ++ " is not an active table"⟩
  | misfit {table : String} {shelf : Shelf} {before after : List Row} {row : Row}
      {fault : DataFault} (hfind : ts.find? table = some shelf)
      (hbefore : ∀ row ∈ before, shelf.schema.checkRow row = .ok ())
      (hrow : shelf.schema.checkRow row = .error fault) :
      Rejects origin ts ⟨table, .store (before ++ row :: after)⟩ (mismatch fault)
  | misfitKey {table : String} {payload : Payload} {shelf : Shelf} {key : List Cell}
      {fault : DataFault} (hpayload : payload = .fetch key ∨ payload = .delete key)
      (hfind : ts.find? table = some shelf) (hkey : shelf.schema.checkKey key = .error fault) :
      Rejects origin ts ⟨table, payload⟩ (mismatch fault)
  | missing {table : String} {shelf : Shelf} {key : List Cell}
      (hfind : ts.find? table = some shelf) (hkey : shelf.schema.checkKey key = .ok ())
      (hrow : shelf.find? (Key.ofCells key) = none) :
      Rejects origin ts ⟨table, .delete key⟩ ⟨.notFound, "notfound"⟩
  | unscanned {table : String} {shelf : Shelf} {piece : Piece} {rejection : Rejection}
      (hfind : ts.find? table = some shelf) (hscan : shelf.scan origin piece = .error rejection) :
      Rejects origin ts ⟨table, .query piece⟩ rejection

variable {ts ts' : Tables} {origin : Int64} {r : Request} {response : Response}
  {rejection : Rejection} {name : String}

theorem checkRows_eq_error_iff {schema : Schema} {rows : List Row} :
    checkRows schema rows = .error rejection ↔
      ∃ before row after fault, rows = before ++ row :: after ∧
        (∀ row ∈ before, schema.checkRow row = .ok ()) ∧ schema.checkRow row = .error fault ∧
          rejection = mismatch fault := by
  constructor
  · intro h
    induction rows with
    | nil => cases h
    | cons row rest ih =>
      rw [checkRows] at h
      cases hrow : schema.checkRow row with
      | error fault =>
        rw [hrow] at h
        cases h
        exact ⟨[], row, rest, fault, rfl, by rintro row ⟨⟩, hrow, rfl⟩
      | ok _ =>
        rw [hrow] at h
        obtain ⟨before, misfit, after, fault, rfl, hbefore, hmisfit⟩ := ih h
        exact ⟨row :: before, misfit, after, fault, rfl, List.forall_mem_cons.mpr ⟨hrow, hbefore⟩,
          hmisfit⟩
  · rintro ⟨before, row, after, fault, rfl, hbefore, hrow, rfl⟩
    induction before with
    | nil => rw [List.nil_append, checkRows, hrow]
    | cons first rest ih =>
      obtain ⟨hfirst, hrest⟩ := List.forall_mem_cons.mp hbefore
      rw [List.cons_append, checkRows, hfirst]
      exact ih hrest

theorem apply_inactive (hcreate : r.kind ≠ .createTable) (hfind : ts.find? r.table = none) :
    ts.apply origin r = .error ⟨.notActive, r.table ++ " is not an active table"⟩ := by
  obtain ⟨table, payload⟩ := r
  cases payload with
  | createTable schema => exact absurd rfl hcreate
  | store rows | fetch key | delete key | listKeys | query piece | describeTable =>
    simp only [apply, hfind]

section Active

variable {table : String} {shelf : Shelf} (hfind : ts.find? table = some shelf)

include hfind

theorem apply_store (rows : List Row) : ts.apply origin ⟨table, .store rows⟩ =
    (store shelf rows).map fun shelf => (.empty, ts.update shelf) := by
  simp only [apply, hfind]

theorem apply_delete (key : List Cell) : ts.apply origin ⟨table, .delete key⟩ =
    (delete shelf key).map fun shelf => (.empty, ts.update shelf) := by
  simp only [apply, hfind]

theorem apply_fetch (key : List Cell) : ts.apply origin ⟨table, .fetch key⟩ =
    (fetch shelf key).map fun result => (.rows result, ts) := by
  simp only [apply, hfind]

theorem apply_query (piece : Piece) : ts.apply origin ⟨table, .query piece⟩ =
    (shelf.scan origin piece).map fun result => (.rows result, ts) := by
  simp only [apply, hfind]

theorem rejects_of_fetch {key : List Cell} (h : fetch shelf key = .error rejection) :
    ts.Rejects origin ⟨table, .fetch key⟩ rejection := by
  unfold fetch at h
  split at h
  · next fault hkey =>
    cases h
    exact .misfitKey (.inl rfl) hfind hkey
  · cases h

theorem rejects_of_delete {key : List Cell} (h : delete shelf key = .error rejection) :
    ts.Rejects origin ⟨table, .delete key⟩ rejection := by
  unfold delete at h
  split at h
  · next fault hkey =>
    cases h
    exact .misfitKey (.inr rfl) hfind hkey
  · next hkey =>
    dsimp only at h
    split_ifs at h with hsome
    cases h
    exact .missing hfind hkey (by simpa using hsome)

end Active

theorem rejects_of_create {table : String} {schema : Schema}
    (h : ts.create schema = .error rejection) :
    ts.Rejects origin ⟨table, .createTable schema⟩ rejection := by
  unfold create at h
  split at h
  · next fault hcheck =>
    cases h
    exact .invalid hcheck
  · next hcheck =>
    split_ifs at h with hsome
    cases h
    obtain ⟨shelf, hshelf⟩ := Option.isSome_iff_exists.mp hsome
    exact .duplicate hcheck hshelf

theorem rejects_of_apply (h : ts.apply origin r = .error rejection) :
    ts.Rejects origin r rejection := by
  obtain ⟨table, payload⟩ := r
  by_cases hcreate : Request.kind ⟨table, payload⟩ = .createTable
  · cases payload with
    | createTable schema => exact rejects_of_create (Except.eq_error_of_map h)
    | store rows | fetch key | delete key | listKeys | query piece | describeTable => cases hcreate
  · cases hfind : ts.find? table with
    | none =>
      rw [apply_inactive hcreate hfind] at h
      cases h
      exact .inactive hcreate hfind
    | some shelf =>
      cases payload with
      | createTable schema => exact absurd rfl hcreate
      | store rows =>
        rw [apply_store hfind] at h
        obtain ⟨before, row, after, fault, rfl, hbefore, hrow, rfl⟩ :=
          checkRows_eq_error_iff.mp (Except.eq_error_of_map (Except.eq_error_of_map h))
        exact .misfit hfind hbefore hrow
      | delete key =>
        rw [apply_delete hfind] at h
        exact rejects_of_delete hfind (Except.eq_error_of_map h)
      | fetch key =>
        rw [apply_fetch hfind] at h
        exact rejects_of_fetch hfind (Except.eq_error_of_map h)
      | query piece =>
        rw [apply_query hfind] at h
        exact .unscanned hfind (Except.eq_error_of_map h)
      | listKeys | describeTable =>
        simp only [apply, hfind] at h
        cases h

theorem Rejects.apply_eq (h : ts.Rejects origin r rejection) :
    ts.apply origin r = .error rejection := by
  cases h with
  | invalid hcheck => simp only [apply, create, hcheck, Except.map]
  | duplicate hcheck hfind =>
    simp only [apply, create, hcheck, hfind, Option.isSome_some, if_true, Except.map]
  | inactive hcreate hfind => exact apply_inactive hcreate hfind
  | misfit hfind hbefore hrow =>
    rw [apply_store hfind, store,
      checkRows_eq_error_iff.mpr ⟨_, _, _, _, rfl, hbefore, hrow, rfl⟩]
    rfl
  | misfitKey hpayload hfind hkey =>
    rcases hpayload with rfl | rfl
    · rw [apply_fetch hfind, fetch, hkey]
      rfl
    · rw [apply_delete hfind, delete, hkey]
      rfl
  | missing hfind hkey hrow =>
    rw [apply_delete hfind, delete, hkey]
    simp only [hrow, Option.isSome_none, Bool.false_eq_true, if_false, Except.map]
  | unscanned hfind hscan =>
    rw [apply_query hfind, hscan]
    rfl

theorem eq_of_create {schema : Schema} (h : ts.create schema = .ok ts') :
    ts' = ts ++ [.empty schema] := by
  unfold create at h
  split at h
  · cases h
  · split_ifs at h
    cases h
    rfl

theorem schema_of_store {shelf stored : Shelf} {rows : List Row}
    (h : store shelf rows = .ok stored) : stored.schema = shelf.schema := by
  obtain ⟨⟨⟩, -, rfl⟩ := Except.exists_of_map h
  exact schema_putAll shelf rows

theorem schema_of_delete {shelf left : Shelf} {key : List Cell}
    (h : delete shelf key = .ok left) : left.schema = shelf.schema := by
  unfold delete at h
  split at h
  · cases h
  · dsimp only at h
    split_ifs at h
    cases h
    rfl

theorem apply_cases (h : ts.apply origin r = .ok (response, ts')) :
    ts' = ts ∨ (∃ schema, r.payload = .createTable schema ∧ ts' = ts ++ [.empty schema]) ∨
      ∃ shelf shelf', ts.find? r.target = some shelf ∧ shelf'.schema = shelf.schema ∧
        ts' = ts.update shelf' := by
  obtain ⟨table, payload⟩ := r
  cases payload with
  | createTable schema =>
    obtain ⟨created, hcreate, heq⟩ := Except.exists_of_map h
    cases heq
    exact .inr (.inl ⟨schema, rfl, eq_of_create hcreate⟩)
  | store rows =>
    cases hfind : ts.find? table with
    | none =>
      rw [apply_inactive (by rintro ⟨⟩) hfind] at h
      cases h
    | some shelf =>
      rw [apply_store hfind] at h
      obtain ⟨stored, hstore, heq⟩ := Except.exists_of_map h
      cases heq
      exact .inr (.inr ⟨shelf, stored, hfind, schema_of_store hstore, rfl⟩)
  | delete key =>
    cases hfind : ts.find? table with
    | none =>
      rw [apply_inactive (by rintro ⟨⟩) hfind] at h
      cases h
    | some shelf =>
      rw [apply_delete hfind] at h
      obtain ⟨left, hdelete, heq⟩ := Except.exists_of_map h
      cases heq
      exact .inr (.inr ⟨shelf, left, hfind, schema_of_delete hdelete, rfl⟩)
  | fetch key | listKeys | query piece | describeTable => exact .inl (eq_of_reads h rfl)

theorem find?_of_apply (h : ts.apply origin r = .ok (response, ts')) (hname : name ≠ r.target) :
    ts'.find? name = ts.find? name := by
  rcases apply_cases h with rfl | ⟨schema, hpayload, rfl⟩ | ⟨shelf, shelf', hfind, hschema, rfl⟩
  · rfl
  · have htarget : r.target = schema.name := by rw [Request.target, hpayload]
    rw [find?_create, if_neg fun h => hname (h.symm.trans htarget.symm), Option.or_none]
  · have htarget : shelf'.schema.name = r.target := by rw [hschema, name_of_find? hfind]
    rw [find?_update, if_neg fun h => hname (h.trans htarget)]

end Tables

namespace Cluster

/-- Why a request is rejected that has arrived in one state of a cluster and is answered in a later
one. -/
inductive Rejects (c later : Cluster) (r : Request) : Rejection → Prop where
  | unsecured (h : ¬c.Accepts) : Rejects c later r unsecured
  | injected {rejection : Rejection} (haccepts : c.Accepts)
      (hrule : Pattern.lookup c.failures r = some rejection) : Rejects c later r rejection
  | applied {rejection : Rejection} (haccepts : c.Accepts)
      (hspared : Pattern.lookup c.failures r = none)
      (h : later.tables.Rejects later.origin r rejection) : Rejects c later r rejection

def outcome (c later : Cluster) (r : Request) : Cluster × Answer :=
  transport.answer later (transport.arrive c r).2.taken

variable {c later : Cluster} {r : Request} {rejection : Rejection}

theorem taken_of_not_accepts (h : ¬c.Accepts) : (c.judge r).taken = ⟨r, some unsecured⟩ := by
  have hrefuses : (c.requiresSecurity && !c.secured) = true := by simpa [Accepts] using h
  rw [judge, if_pos hrefuses]

theorem taken_of_accepts (h : c.Accepts) :
    (c.judge r).taken = ⟨r, Pattern.lookup c.failures r⟩ := by
  have haccepts : ¬(c.requiresSecurity && !c.secured) = true := by
    rw [show (c.requiresSecurity && !c.secured) = false from h]
    exact Bool.false_ne_true
  rw [judge, if_neg haccepts]

theorem outcome_of_rejects (h : Rejects c later r rejection) :
    outcome c later r = (later.leave, .reply (.error rejection)) := by
  unfold outcome
  cases h with
  | unsecured h => simp only [transport, taken_of_not_accepts h, conclude]
  | injected haccepts hrule => simp only [transport, taken_of_accepts haccepts, hrule, conclude]
  | applied haccepts hspared h =>
    have happly : later.leave.tables.apply later.leave.origin r = .error rejection := h.apply_eq
    simp only [transport, taken_of_accepts haccepts, hspared, conclude, Cluster.apply, happly]

theorem outcome_cases (c later : Cluster) (r : Request) :
    (∃ rejection, Rejects c later r rejection ∧
        outcome c later r = (later.leave, .reply (.error rejection))) ∨
      ∃ response tables, later.tables.apply later.origin r = .ok (response, tables) ∧
        outcome c later r = ({ later.leave with tables := tables }, .reply (.ok response)) := by
  by_cases haccepts : c.Accepts
  · cases hrule : Pattern.lookup c.failures r with
    | some rejection =>
      have hrejects : Rejects c later r rejection := .injected haccepts hrule
      exact .inl ⟨rejection, hrejects, outcome_of_rejects hrejects⟩
    | none =>
      cases happly : later.tables.apply later.origin r with
      | error rejection =>
        have hrejects : Rejects c later r rejection :=
          .applied haccepts hrule (Tables.rejects_of_apply happly)
        exact .inl ⟨rejection, hrejects, outcome_of_rejects hrejects⟩
      | ok result =>
        obtain ⟨response, tables⟩ := result
        refine .inr ⟨response, tables, rfl, ?_⟩
        have hleave : later.leave.tables.apply later.leave.origin r = .ok (response, tables) :=
          happly
        simp only [outcome, transport, taken_of_accepts haccepts, hrule, conclude, Cluster.apply,
          hleave]
  · have hrejects : Rejects c later r unsecured := .unsecured haccepts
    exact .inl ⟨unsecured, hrejects, outcome_of_rejects hrejects⟩

/-- What a request does to the tables from its arrival in a cluster to its answer in a later
state. -/
structure Effects (c later : Cluster) (r : Request) : Prop where
  arrived : (transport.arrive c r).1.tables = c.tables
  abandoned : (transport.abandon later (transport.arrive c r).2.taken).tables = later.tables
  replied : ∃ reply, (outcome c later r).2 = .reply reply
  rejected_iff : ∀ rejection,
    (outcome c later r).2 = .reply (.error rejection) ↔ Rejects c later r rejection
  rejected : ∀ rejection, (outcome c later r).2 = .reply (.error rejection) →
    (outcome c later r).1.tables = later.tables
  read : r.payload.reads = true → (outcome c later r).1.tables = later.tables
  elsewhere : ∀ name, name ≠ r.target →
    (outcome c later r).1.tables.find? name = later.tables.find? name

/-- A request that is rejected or only reads leaves all tables as they are, and any other one all
but the table that it targets. -/
theorem effects_of_request (c later : Cluster) (r : Request) : Effects c later r := by
  rcases outcome_cases c later r with ⟨rejection, hrejects, houtcome⟩ |
    ⟨response, tables, happly, houtcome⟩
  · refine ⟨rfl, rfl, ⟨_, by rw [houtcome]⟩, fun rejection' => ⟨fun h => ?_, fun h => ?_⟩,
      fun _ _ => by rw [houtcome]; rfl, fun _ => by rw [houtcome]; rfl,
      fun name _ => by rw [houtcome]; rfl⟩
    · rw [houtcome] at h
      cases h
      exact hrejects
    · rw [outcome_of_rejects h]
  · refine ⟨rfl, rfl, ⟨_, by rw [houtcome]⟩, fun rejection => ⟨fun h => ?_, fun h => ?_⟩,
      fun rejection h => ?_, fun hreads => ?_, fun name hname => ?_⟩
    · rw [houtcome] at h
      cases h
    · rw [outcome_of_rejects h]
    · rw [houtcome] at h
      cases h
    · rw [houtcome]
      exact Tables.eq_of_reads happly hreads
    · rw [houtcome]
      exact Tables.find?_of_apply happly hname

/-- A table is created under its own name by a request for another one. -/
example : (outcome (.start false false 0 []) (.start false false 0 [])
    ⟨"other", .createTable Loads.schema⟩).1.tables.map (fun s => s.schema.name) = ["loads"] := by
  decide +kernel

end Cluster

end Timeslice
