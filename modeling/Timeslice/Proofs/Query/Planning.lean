import Timeslice.Proofs.Data.Rows
import Timeslice.Proofs.Predicate.Bounds
import Timeslice.Proofs.Time.Grid

/-!
# What a plan is made of

The columns of a plan are those that the projection names, its pieces share out the span of the time
bounds, and each of them carries the residual.
-/

namespace Timeslice

namespace Schema

def outputNames (s : Schema) : Projection → List String
  | .all => s.columnNames
  | .columns names => names

theorem resolve_spec {s : Schema} {name : String} {column : Column}
    (h : s.resolve name = .ok column) : ∃ c ∈ s.columns, c.name = name ∧ c.toColumn = column := by
  unfold resolve at h
  split at h
  · next c hfind =>
    cases h
    have hname := List.find?_some hfind
    exact ⟨c, List.mem_of_find?_eq_some hfind, beq_iff_eq.mp hname, rfl⟩
  · cases h

theorem resolveAll_spec {s : Schema} {names : List String} {columns : List Column}
    (h : s.resolveAll names = .ok columns) :
    columns.map (·.name) = names ∧ ∀ name ∈ names, ∃ c ∈ s.columns, c.name = name := by
  induction names generalizing columns with
  | nil =>
    cases h
    exact ⟨rfl, by rintro name ⟨⟩⟩
  | cons name rest ih =>
    obtain ⟨column, hcolumn, h⟩ := Except.exists_of_bind h
    obtain ⟨tail, htail, h⟩ := Except.exists_of_bind h
    cases h
    obtain ⟨c, hc, hname, rfl⟩ := resolve_spec hcolumn
    obtain ⟨hnames, hall⟩ := ih htail
    exact ⟨by rw [List.map_cons, hnames, hname], List.forall_mem_cons.mpr ⟨⟨c, hc, hname⟩, hall⟩⟩

theorem selected_spec {s : Schema} {projection : Projection} {columns : List Column}
    (h : s.selected projection = .ok columns) :
    columns.map (·.name) = s.outputNames projection ∧
      ∀ name ∈ s.outputNames projection, ∃ c ∈ s.columns, c.name = name := by
  cases projection with
  | all =>
    cases h
    refine ⟨by rw [plainColumns, List.map_map]; rfl, fun name hname => ?_⟩
    exact List.mem_map.mp hname
  | columns names => exact resolveAll_spec h

/-- The parts that a plan of a SELECT is put together from. -/
structure Planned (s : Schema) (settings : Settings) (select : Select) (plan : Plan)
    (q : Quantum) (split : TimeSplit) (spans : List (Option Span)) : Prop where
  names : plan.columns.map (·.name) = s.outputNames select.projection
  known : ∀ name ∈ s.outputNames select.projection, ∃ c ∈ s.columns, c.name = name
  quantum : s.quantum = .ok q
  condition : s.condition s.timeColumn select.predicate = .ok split
  cut : Schema.spans q settings.origin settings.quantaLimit split.span = .ok spans
  timeIndex : plan.timeIndex =
    (s.outputNames select.projection).findIdx? fun name => name == s.timeColumn
  pieces : plan.pieces = spans.map fun span =>
    ⟨s.outputNames select.projection, s.timeColumn, span, split.residual.map Predicate.text⟩

theorem exists_planned {s : Schema} {settings : Settings} {select : Select} {plan : Plan}
    (h : s.plan settings select = .ok plan) :
    ∃ quantum split spans, s.Planned settings select plan quantum split spans := by
  obtain ⟨columns, hcolumns, h⟩ := Except.exists_of_bind h
  obtain ⟨quantum, hquantum, h⟩ := Except.exists_of_bind h
  obtain ⟨split, hsplit, h⟩ := Except.exists_of_bind h
  obtain ⟨spans, hspans, h⟩ := Except.exists_of_bind h
  cases h
  obtain ⟨hnames, hknown⟩ := selected_spec hcolumns
  exact ⟨quantum, split, spans, hnames, hknown, Except.eq_ok_of_mapError hquantum, hsplit, hspans,
    by rw [← hnames], by rw [← hnames]⟩

theorem condition_spec {s : Schema} {column : String} {predicate : Option Predicate}
    {split : TimeSplit} (h : s.condition column predicate = .ok split) :
    (predicate = none ∧ split = ⟨none, none⟩) ∨
      ∃ p, predicate = some p ∧ p.splitTime column = .ok split := by
  cases predicate with
  | none =>
    cases h
    exact .inl ⟨rfl, rfl⟩
  | some p =>
    obtain ⟨columns, -, h⟩ := Except.exists_of_bind h
    exact .inr ⟨p, rfl, Except.eq_ok_of_mapError h⟩

/-- The spans of the pieces: a single missing one, or the quanta that share out the span. -/
theorem spans_spec {quantum : Quantum} {origin : Int64} {limit : UInt64} {span : Option Span}
    {spans : List (Option Span)} (h : Schema.spans quantum origin limit span = .ok spans) :
    (span = none ∧ spans = [none]) ∨
      ∃ s pieces first, span = some s ∧ spans = pieces.map some ∧
        (quantum.grid origin).Shares s first pieces := by
  cases span with
  | none =>
    cases h
    exact .inl ⟨rfl, rfl⟩
  | some s =>
    obtain ⟨pieces, hcut, heq⟩ := Except.exists_of_map (Except.eq_ok_of_mapError h)
    obtain ⟨first, hshares⟩ :=
      Grid.exists_shares_of_cut ((quantum.grid_cut origin s limit).trans (congrArg some hcut))
    exact .inr ⟨s, pieces, first, rfl, heq.symm, hshares⟩

theorem Planned.span_spec {s : Schema} {settings : Settings} {select : Select} {plan : Plan}
    {quantum : Quantum} {split : TimeSplit} {spans : List (Option Span)}
    (h : s.Planned settings select plan quantum split spans) {span : Option Span}
    (hspan : span ∈ spans) :
    (∀ s ∈ span, s.isEmpty = false ∧
      Shelf.insideQuantum (quantum.grid settings.origin) s = true) ∧
      ∀ t, (∀ s ∈ span, s.contains t = true) → ∀ s ∈ split.span, s.contains t = true := by
  rcases Schema.spans_spec h.cut with ⟨hnone, rfl⟩ | ⟨s, qs, first, hs, rfl, hshares⟩
  · obtain rfl := List.mem_singleton.mp hspan
    rw [hnone]
    exact ⟨by rintro s ⟨⟩, by rintro t - s ⟨⟩⟩
  · obtain ⟨q, hq, rfl⟩ := List.mem_map.mp hspan
    obtain ⟨k, hk, rfl⟩ := List.mem_iff_getElem.mp hq
    rw [hs]
    refine ⟨?_, ?_⟩
    · rintro s ⟨⟩
      exact hshares.inside _ hq
    · rintro t ht s ⟨⟩
      exact ((hshares.contains k hk t).mp (ht _ rfl)).1

end Schema

/-! A table of loads by host and time, with a quantum of a second, and a SELECT that spans two
quanta. -/

namespace Loads

def schema : Schema where
  name := "loads"
  columns := [
    ⟨⟨"host", .varchar, false⟩, some 1, some 1, none⟩,
    ⟨⟨"time", .timestamp, false⟩, some 2, some 2, some ⟨1, .second⟩⟩,
    ⟨⟨"load", .sint64, true⟩, none, none, none⟩]

def text : String :=
  "SELECT time, load FROM loads WHERE time >= 0 AND time < 2000"

def select : Select where
  table := "loads"
  projection := .columns ["time", "load"]
  predicate := some (.and (.compare ⟨"time", .greaterOrEqual, .integer 0⟩)
    (.compare ⟨"time", .less, .integer 2000⟩))

def plan : Plan where
  table := "loads"
  columns := [⟨"time", .timestamp, false⟩, ⟨"load", .sint64, true⟩]
  timeIndex := some 0
  pieces := [
    ⟨["time", "load"], "time", some ⟨0, 1000⟩, none⟩,
    ⟨["time", "load"], "time", some ⟨1000, 2000⟩, none⟩]

theorem plan_select (concurrency : UInt64) :
    schema.plan ⟨concurrency, 5000, 0⟩ select = .ok plan :=
  calc schema.plan ⟨concurrency, 5000, 0⟩ select
    _ = schema.plan .standard select := rfl
    _ = .ok plan := by decide +kernel

end Loads

end Timeslice
