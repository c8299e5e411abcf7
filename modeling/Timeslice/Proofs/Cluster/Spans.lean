import Timeslice.Proofs.Cluster.Traffic
import Timeslice.Proofs.Query.Planning
import Timeslice.Proofs.Query.Scanning

/-!
# The spans that a cluster accepts

A cluster accepts the span of a query if no boundary of the quantum grid lies strictly inside it,
also at the ends of the 64-bit range. The pieces of a plan have such spans, and the tables of a
cluster have quanta of positive width.
-/

namespace Timeslice

namespace Schema

/-- How a table with this schema checks the spans of its queries on the grid of this origin. -/
structure ChecksSpans (s : Schema) (origin width : Int64) : Prop where
  quantumWidth : s.quantumWidth = .ok width
  positive : 0 < width
  accepts_iff : ∀ span : Span, span.isEmpty = false →
    (Shelf.checkSpan s origin span = .ok () ↔ ¬Grid.Straddles ⟨width, origin⟩ span)
  rejects : ∀ span : Span, span.isEmpty = false → Grid.Straddles ⟨width, origin⟩ span →
    Shelf.checkSpan s origin span =
      .error (.unparsable ("query range " ++ span.text ++ " spans more than one quantum"))
  planned : ∀ (settings : Settings) (select : Select) (plan : Plan), settings.origin = origin →
    s.plan settings select = .ok plan → ∀ piece ∈ plan.pieces, ∀ span ∈ piece.span,
      span.isEmpty = false ∧ Shelf.checkSpan s origin span = .ok ()

theorem checkSpan_eq {s : Schema} {width : Int64} (h : s.quantumWidth = .ok width)
    (origin : Int64) (span : Span) :
    Shelf.checkSpan s origin span =
      if Shelf.insideQuantum ⟨width, origin⟩ span then .ok ()
      else
        .error (.unparsable ("query range " ++ span.text ++ " spans more than one quantum")) := by
  rw [Shelf.checkSpan, h]

theorem inside_of_planned {s : Schema} {settings : Settings} {select : Select} {plan : Plan}
    {width : Int64} (hwidth : s.quantumWidth = .ok width) (h : s.plan settings select = .ok plan)
    {piece : Piece} (hpiece : piece ∈ plan.pieces) {span : Span} (hspan : piece.span = some span) :
    span.isEmpty = false ∧ Shelf.insideQuantum ⟨width, settings.origin⟩ span = true := by
  obtain ⟨quantum, split, spans, hplanned⟩ := exists_planned h
  rw [quantumWidth, hplanned.quantum] at hwidth
  cases hwidth
  rw [hplanned.pieces] at hpiece
  obtain ⟨cut, hcut, rfl⟩ := List.mem_map.mp hpiece
  exact (hplanned.span_spec hcut).1 span hspan

theorem exists_checksSpans {s : Schema} (h : s.check = .ok ()) (origin : Int64) :
    ∃ width, s.ChecksSpans origin width := by
  obtain ⟨c, q, htimed⟩ := exists_timedBy h
  have hwidth := htimed.quantumWidth_eq
  have hinside (span : Span) (hspan : span.isEmpty = false) :
      Shelf.insideQuantum ⟨q.width, origin⟩ span = true ↔ ¬Grid.Straddles ⟨q.width, origin⟩ span :=
    Grid.insideQuantum_iff (g := ⟨q.width, origin⟩) htimed.positive hspan
  refine ⟨q.width, hwidth, ?_, fun span hspan => ?_, fun span hspan hstraddles => ?_, ?_⟩
  · rw [Int64.lt_iff_toInt_lt]
    exact htimed.positive
  · rw [checkSpan_eq hwidth, ← hinside span hspan]
    split_ifs with h
    · exact iff_of_true rfl h
    · exact iff_of_false nofun h
  · rw [checkSpan_eq hwidth, if_neg fun h => (hinside span hspan).mp h hstraddles]
  · rintro settings select plan rfl hplan piece hpiece span hspan
    obtain ⟨hempty, h⟩ := inside_of_planned hwidth hplan hpiece hspan
    exact ⟨hempty, by rw [checkSpan_eq hwidth, if_pos h]⟩

end Schema

namespace Traffic

/-- Spans are checked against the boundaries of the grid, for each schema that is checked and so for
each table that a cluster can come to have. -/
theorem checks_spans {schema : Schema} (hcheck : schema.check = .ok ())
    (requiresSecurity secured : Bool) (origin : Int64) (latencies : List (Pattern × Nat))
    (events : List Event) :
    (∃ width, schema.ChecksSpans origin width) ∧
      ∀ shelf ∈ ((start requiresSecurity secured origin latencies).run events).cluster.tables,
        ∃ width, shelf.schema.ChecksSpans
          ((start requiresSecurity secured origin latencies).run events).cluster.origin width := by
  refine ⟨Schema.exists_checksSpans hcheck origin, fun shelf hshelf => ?_⟩
  have horderly := (isOrderly_start requiresSecurity secured origin latencies).run events
  exact Schema.exists_checksSpans (horderly.tables.sound shelf hshelf).checked _

def loadsCreated : List Event :=
  [.arrive ⟨"", .createTable Loads.schema⟩, .arrive ⟨"loads", .listKeys⟩, .clearHistory, .answer 0,
    .abandon 0]

theorem checks_spans_loads :
    Loads.schema.check = .ok () ∧ (∃ width, Loads.schema.ChecksSpans 0 width) ∧
      ∀ shelf ∈ ((start false false 0 []).run loadsCreated).cluster.tables,
        ∃ width, shelf.schema.ChecksSpans
          ((start false false 0 []).run loadsCreated).cluster.origin width :=
  have hcheck : Loads.schema.check = .ok () := by decide +kernel
  ⟨hcheck, checks_spans hcheck false false 0 [] loadsCreated⟩

end Traffic

end Timeslice
