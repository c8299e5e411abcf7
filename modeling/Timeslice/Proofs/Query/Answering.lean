import Timeslice.Proofs.Query.Fibres
import Timeslice.Proofs.Query.Scanning

/-!
# The answer to a SELECT

The parts of a plan that a sound shelf answers, merged in the plan's order, are the rows that the
SELECT asks for: each one once, by quantum first and by local key inside a quantum.
-/

namespace Timeslice

namespace Select

/-- The WHERE clause has a value on the row. -/
def Decides (select : Select) (columns : List Column) (row : Row) : Prop :=
  ∃ b, Shelf.satisfies columns select.predicate row = .ok b

def wants (select : Select) (columns : List Column) (row : Row) : Bool :=
  match Shelf.satisfies columns select.predicate row with
  | .ok b => b
  | .error _ => false

def IsFinite (select : Select) : Prop :=
  ∀ p ∈ select.predicate, p.IsFinite

theorem Decides.satisfies_eq {select : Select} {columns : List Column} {row : Row}
    (h : select.Decides columns row) :
    Shelf.satisfies columns select.predicate row = .ok (select.wants columns row) := by
  obtain ⟨b, hb⟩ := h
  simp only [wants, hb]

instance (select : Select) (columns : List Column) (row : Row) :
    Decidable (select.Decides columns row) :=
  match h : Shelf.satisfies columns select.predicate row with
  | .ok _ => .isTrue ⟨_, h⟩
  | .error _ => .isFalse fun ⟨_, hb⟩ => nomatch h.symm.trans hb

end Select

namespace Schema

def time? (s : Schema) (row : Row) : Option Int64 :=
  match (s.indexOf? s.timeColumn).bind fun i => row[i]? with
  | some (.timestamp t) => some t
  | _ => none

def quantumAt (s : Schema) (origin : Int64) (row : Row) : Int :=
  match s.quantumWidth, s.time? row with
  | .ok width, some t => Grid.index ⟨width, origin⟩ t
  | _, _ => 0

/-- The SELECT bounds the time column. -/
def isTimed (s : Schema) (select : Select) : Bool :=
  select.predicate.any fun p => p.mentions s.timeColumn

/-- The order of a SELECT's rows: by quantum if the SELECT bounds the time column, and by local
key. -/
def Precedes (s : Schema) (origin : Int64) (select : Select) (a b : Row) : Prop :=
  (s.isTimed select = true ∧ s.quantumAt origin a < s.quantumAt origin b) ∨
    (s.isTimed select = true → s.quantumAt origin a = s.quantumAt origin b) ∧
      Key.order (Shelf.keyOf s a) (Shelf.keyOf s b) = .lt

theorem time_eq {s : Schema} {c : TableColumn} {q : Quantum} (h : s.TimedBy c q) {i : Nat}
    (hi : s.indexOf? c.name = some i) {row : Row} {t : Int64}
    (ht : row[i]? = some (.timestamp t)) : s.time? row = some t := by
  rw [time?, h.timeColumn_eq, hi, Option.bind_some, ht]

theorem quantumAt_eq {s : Schema} {c : TableColumn} {q : Quantum} (h : s.TimedBy c q)
    {origin : Int64} {row : Row} {t : Int64} (ht : s.time? row = some t) :
    s.quantumAt origin row = (q.grid origin).index t := by
  rw [quantumAt, h.quantumWidth_eq, ht]
  rfl

end Schema

namespace Shelf

def wanted (shelf : Shelf) (select : Select) : List Row :=
  shelf.contents.filter (select.wants shelf.schema.plainColumns)

def meets (shelf : Shelf) (span : Option Span) (row : Row) : Bool :=
  span.all fun s => (shelf.schema.time? row).any s.contains

/-- The stored rows that the piece contributes to the answer. -/
def share (shelf : Shelf) (select : Select) (piece : Piece) : List Row :=
  (shelf.wanted select).filter (shelf.meets piece.span)

/-- The answer to a planned SELECT, as stored rows. -/
def answer (shelf : Shelf) (select : Select) (plan : Plan) : List Row :=
  plan.pieces.flatMap (shelf.share select)

theorem inSpan_eq {shelf : Shelf} {c : TableColumn} {q : Quantum} (h : shelf.schema.TimedBy c q)
    {i : Nat} (hi : shelf.schema.indexOf? c.name = some i) (span : Option Span) (row : Row) :
    inSpan span i row = shelf.meets span row := by
  cases span with
  | none => rfl
  | some s =>
    rw [inSpan, meets, Option.all_some, Schema.time?, h.timeColumn_eq, hi, Option.bind_some]
    rcases row[i]? with _ | cell
    · rfl
    · cases cell <;> rfl

end Shelf

/-- A sound shelf and a SELECT that is planned against its schema and has a value on all its
rows. -/
structure Answerable (shelf : Shelf) (settings : Settings) (select : Select) (plan : Plan) : Prop where
  sound : shelf.IsSound
  planned : shelf.schema.plan settings select = .ok plan
  projected : select.projection ≠ .columns []
  readable : ∀ p ∈ select.predicate, p.IsReadable
  finite : select.IsFinite
  decides : ∀ row ∈ shelf.contents, select.Decides shelf.schema.plainColumns row

namespace Answerable

variable {shelf : Shelf} {settings : Settings} {select : Select} {plan : Plan}
  {c : TableColumn} {q quantum : Quantum} {split : TimeSplit} {spans : List (Option Span)}

/-- The residual has the value of the WHERE clause on a row whose time the bounds admit. -/
theorem satisfies_residual (h : Answerable shelf settings select plan)
    (htimed : shelf.schema.TimedBy c q)
    (hplanned : shelf.schema.Planned settings select plan quantum split spans)
    {row : Row} (hrow : row ∈ shelf.contents) {t : Int64} {i : Nat}
    (hi : shelf.schema.indexOf? c.name = some i) (ht : row[i]? = some (.timestamp t))
    (hspan : ∀ s ∈ split.span, s.contains t = true) :
    Shelf.satisfies shelf.schema.plainColumns split.residual row =
      .ok (select.wants shelf.schema.plainColumns row) := by
  rw [← (h.decides row hrow).satisfies_eq]
  rcases Schema.condition_spec hplanned.condition with ⟨hnone, rfl⟩ | ⟨p, hp, hsplit⟩
  · rw [hnone]
  · rw [htimed.timeColumn_eq] at hsplit
    have hcell : Predicate.cellAt? shelf.schema.plainColumns row c.name = some (.timestamp t) := by
      rw [Schema.cellAt_plainColumns, hi, Option.bind_some, ht]
    rw [hp, Predicate.satisfies_of_splitTime hsplit hcell hspan]
    rfl

theorem contains_of_wants (htimed : shelf.schema.TimedBy c q)
    (hplanned : shelf.schema.Planned settings select plan quantum split spans)
    {row : Row} {t : Int64} {i : Nat} (hi : shelf.schema.indexOf? c.name = some i)
    (ht : row[i]? = some (.timestamp t))
    (hwants : select.wants shelf.schema.plainColumns row = true) :
    ∀ s ∈ split.span, s.contains t = true := by
  intro s hs
  rcases Schema.condition_spec hplanned.condition with ⟨hnone, rfl⟩ | ⟨p, hp, hsplit⟩
  · cases hs
  · rw [htimed.timeColumn_eq] at hsplit
    have hcell : Predicate.cellAt? shelf.schema.plainColumns row c.name = some (.timestamp t) := by
      rw [Schema.cellAt_plainColumns, hi, Option.bind_some, ht]
    by_contra hout
    have hfalse := Predicate.evaluate_of_splitTime hsplit hcell ⟨s, hs, by simpa using hout⟩
    rw [Select.wants, hp] at hwants
    simp only [Shelf.satisfies] at hwants
    split at hwants
    · next b hb => exact hfalse (by rw [hb, hwants])
    · cases hwants

theorem isTimed_eq (hplanned : shelf.schema.Planned settings select plan quantum split spans) :
    shelf.schema.isTimed select = split.span.isSome := by
  rcases Schema.condition_spec hplanned.condition with ⟨hnone, rfl⟩ | ⟨p, hp, hsplit⟩
  · rw [Schema.isTimed, hnone]
    rfl
  · rw [Schema.isTimed, hp, Predicate.isSome_span_of_splitTime hsplit]
    rfl

/-- The spans of the pieces separate the rows that the SELECT asks for by their quanta. -/
theorem separates (h : Answerable shelf settings select plan) (htimed : shelf.schema.TimedBy c q)
    (hplanned : shelf.schema.Planned settings select plan q split spans) {s : Span}
    (hs : split.span = some s) {first : Int} {pieces : List Span}
    (hshares : (q.grid settings.origin).Shares s first pieces) :
    Separates (shelf.schema.quantumAt settings.origin)
        (fun (piece : Span) row => shelf.meets (some piece) row) first pieces
        (shelf.wanted select) ∧
      ∀ row ∈ shelf.wanted select, first ≤ shelf.schema.quantumAt settings.origin row ∧
        shelf.schema.quantumAt settings.origin row < first + pieces.length := by
  have hrow : ∀ row ∈ shelf.wanted select, ∃ t, shelf.schema.time? row = some t ∧
      s.contains t = true := by
    intro row hrow
    rw [Shelf.wanted, List.mem_filter] at hrow
    obtain ⟨i, t, hi, ht⟩ := htimed.exists_time h.sound.checked (h.sound.contents_fit hrow.1)
    exact ⟨t, Schema.time_eq htimed hi ht,
      contains_of_wants htimed hplanned hi ht hrow.2 s hs⟩
  constructor
  · intro k hk row hwanted
    obtain ⟨t, ht, hcontains⟩ := hrow row hwanted
    rw [Schema.quantumAt_eq htimed ht]
    simp only [Shelf.meets, Option.all_some, ht, Option.any_some, hshares.contains k hk t,
      hcontains, true_and]
  · intro row hwanted
    obtain ⟨t, ht, hcontains⟩ := hrow row hwanted
    rw [Schema.quantumAt_eq htimed ht]
    exact hshares.covers t hcontains

theorem wanted_sorted (h : Answerable shelf settings select plan) :
    (shelf.wanted select).Pairwise fun a b =>
      Key.order (Shelf.keyOf shelf.schema a) (Shelf.keyOf shelf.schema b) = .lt :=
  h.sound.contents_sorted.filter _

theorem exists_timed_plan (h : Answerable shelf settings select plan) :
    ∃ c q split spans, shelf.schema.TimedBy c q ∧
      shelf.schema.Planned settings select plan q split spans := by
  obtain ⟨c, q, htimed⟩ := Schema.exists_timedBy h.sound.checked
  obtain ⟨quantum, split, spans, hplanned⟩ := Schema.exists_planned h.planned
  obtain rfl := Except.ok.inj (htimed.quantum_eq.symm.trans hplanned.quantum)
  exact ⟨c, q, split, spans, htimed, hplanned⟩

/-- The answer has each row that the SELECT asks for once, and it has them in order. -/
theorem answer_spec (h : Answerable shelf settings select plan) :
    (shelf.answer select plan).Perm (shelf.wanted select) ∧
      (shelf.answer select plan).Pairwise (shelf.schema.Precedes settings.origin select) := by
  obtain ⟨c, q, split, spans, htimed, hplanned⟩ := h.exists_timed_plan
  have htimedEq := isTimed_eq hplanned
  have hanswer : shelf.answer select plan =
      spans.flatMap fun span => (shelf.wanted select).filter (shelf.meets span) := by
    rw [Shelf.answer, hplanned.pieces, List.flatMap_map]
    rfl
  rw [hanswer]
  rcases Schema.spans_spec hplanned.cut with ⟨hspan, rfl⟩ | ⟨s, pieces, first, hspan, rfl, hshares⟩
  · rw [hspan] at htimedEq
    have hall : (shelf.wanted select).filter (shelf.meets none) = shelf.wanted select :=
      List.filter_eq_self.mpr fun row _ => rfl
    rw [List.flatMap_singleton, hall]
    refine ⟨.refl _, h.wanted_sorted.imp fun hlt => .inr ⟨fun htrue => ?_, hlt⟩⟩
    rw [htimedEq] at htrue
    cases htrue
  · rw [hspan] at htimedEq
    obtain ⟨hseparates, hall⟩ := h.separates htimed hplanned hspan hshares
    rw [List.flatMap_map]
    refine ⟨flatMap_filter_perm hseparates hall,
      (pairwise_flatMap_filter hseparates h.wanted_sorted).imp ?_⟩
    rintro a b (hlt | ⟨heq, hlt⟩)
    · exact .inl ⟨htimedEq, hlt⟩
    · exact .inr ⟨fun _ => heq, hlt⟩

theorem residual_spec (h : Answerable shelf settings select plan)
    (hplanned : shelf.schema.Planned settings select plan quantum split spans) :
    ∀ p ∈ split.residual, p.IsReadable ∧ p.IsFinite := by
  rcases Schema.condition_spec hplanned.condition with ⟨hnone, rfl⟩ | ⟨p, hp, hsplit⟩
  · rintro p ⟨⟩
  · exact fun r hr => ⟨Predicate.all_residual_of_splitTime hsplit (h.readable p hp) r hr,
      Predicate.all_residual_of_splitTime hsplit (h.finite p hp) r hr⟩

theorem scan_piece (h : Answerable shelf settings select plan) {piece : Piece}
    (hpiece : piece ∈ plan.pieces) :
    ∃ columns, shelf.scan settings.origin piece = .ok (.ofRows columns
      ((shelf.share select piece).map
        (shelf.schema.pick (shelf.schema.outputNames select.projection)))) := by
  obtain ⟨c, q, split, spans, htimed, hplanned⟩ := h.exists_timed_plan
  obtain ⟨i, hi, -⟩ := Schema.exists_indexOf_of_mem h.sound.checked htimed.mem
  rw [hplanned.pieces] at hpiece
  obtain ⟨span, hspan, rfl⟩ := List.mem_map.mp hpiece
  obtain ⟨hinside, hbounds⟩ := hplanned.span_spec hspan
  have hkeep : ∀ row ∈ shelf.contents, Shelf.inSpan span i row = true →
      Shelf.satisfies shelf.schema.plainColumns split.residual row =
        .ok (select.wants shelf.schema.plainColumns row) := by
    intro row hrow hin
    obtain ⟨j, t, hj, ht⟩ := htimed.exists_time h.sound.checked (h.sound.contents_fit hrow)
    obtain rfl : i = j := by
      rw [hi] at hj
      exact Option.some.inj hj
    refine h.satisfies_residual htimed hplanned hrow hi ht (hbounds t fun s hs => ?_)
    rw [Option.mem_def] at hs
    rw [hs, Shelf.inSpan, ht] at hin
    exact hin
  obtain ⟨columns, hscan⟩ := Shelf.scan_eq h.sound htimed hi hplanned.known hinside
    (h.residual_spec hplanned) hkeep
  refine ⟨columns, ?_⟩
  have hshare : (shelf.contents.filter fun row => Shelf.inSpan span i row &&
      select.wants shelf.schema.plainColumns row) =
        (shelf.wanted select).filter (shelf.meets span) := by
    rw [Shelf.wanted, List.filter_filter]
    exact List.filter_congr fun row _ => by rw [Shelf.inSpan_eq htimed hi]
  rw [htimed.timeColumn_eq, hscan, hshare]
  rfl

theorem keeps_pick (h : Answerable shelf settings select plan) {piece : Piece}
    {row : Row} (hrow : row ∈ shelf.share select piece) :
    plan.keeps piece (shelf.schema.pick (shelf.schema.outputNames select.projection) row) =
      true := by
  obtain ⟨c, q, htimed⟩ := Schema.exists_timedBy h.sound.checked
  obtain ⟨quantum, split, spans, hplanned⟩ := Schema.exists_planned h.planned
  obtain ⟨hwanted, hmeets⟩ := List.mem_filter.mp hrow
  unfold Plan.keeps
  cases hspan : piece.span with
  | none => rfl
  | some s =>
    cases hindex : plan.timeIndex with
    | none => rfl
    | some index =>
      obtain ⟨i, t, hi, ht⟩ := htimed.exists_time h.sound.checked
        (h.sound.contents_fit (List.mem_filter.mp hwanted).1)
      rw [hplanned.timeIndex, List.findIdx?_eq_some_iff_getElem] at hindex
      obtain ⟨hlt, hname, -⟩ := hindex
      rw [beq_iff_eq, htimed.timeColumn_eq] at hname
      have hcell : (shelf.schema.pick (shelf.schema.outputNames select.projection) row)[index]? =
          some (.timestamp t) := by
        rw [Schema.pick, List.getElem?_map, List.getElem?_eq_getElem hlt, hname, Option.map_some,
          Schema.cellAt_plainColumns, hi, Option.bind_some, ht]
        rfl
      rw [hspan, Shelf.meets, Option.all_some, Schema.time_eq htimed hi ht, Option.any_some] at hmeets
      simpa only [hcell] using hmeets

/-- The parts that answer the pieces have the plan's width, and merge into the answer. -/
theorem exists_parts (h : Answerable shelf settings select plan) :
    ∃ part : Piece → ResultSet,
      (∀ piece ∈ plan.pieces, shelf.scan settings.origin piece = .ok (part piece)) ∧
      (∀ piece, ∀ row ∈ (part piece).rows, row.length = plan.columns.length) ∧
      plan.merge (plan.pieces.map part) = .ofRows plan.columns
        ((shelf.answer select plan).map fun row => shelf.schema.view row select.projection) := by
  obtain ⟨quantum, split, spans, hplanned⟩ := Schema.exists_planned h.planned
  have hscan : ∀ piece ∈ plan.pieces, _ := fun piece hpiece => h.scan_piece hpiece
  choose! columns hcolumns using hscan
  refine ⟨fun piece => .ofRows (columns piece) _, hcolumns, ?_, ?_⟩
  · intro piece row hrow
    rw [ResultSet.rows_ofRows] at hrow
    obtain ⟨stored, -, rfl⟩ := List.mem_map.mp hrow
    rw [Schema.pick, List.length_map, ← hplanned.names, List.length_map]
  · rw [Plan.merge, ← List.map_prod_left_eq_zip, List.flatMap_map, Shelf.answer, List.map_flatMap]
    congr 1
    refine List.flatMap_congr fun piece hpiece => ?_
    simp only [ResultSet.rows_ofRows]
    rw [List.filter_eq_self.mpr]
    · refine List.map_congr_left fun row hrow => ?_
      have hfits := h.sound.contents_fit (List.mem_filter.mp (List.mem_filter.mp hrow).1).1
      exact Schema.pick_outputNames h.sound.checked hfits select.projection
    · intro row hrow
      obtain ⟨stored, hstored, rfl⟩ := List.mem_map.mp hrow
      exact h.keeps_pick hstored

theorem merge_eq (h : Answerable shelf settings select plan) {parts : List ResultSet}
    (hparts : List.Forall₂ (fun piece part => shelf.scan settings.origin piece = .ok part)
      plan.pieces parts) :
    plan.merge parts = .ofRows plan.columns
      ((shelf.answer select plan).map fun row => shelf.schema.view row select.projection) := by
  obtain ⟨part, hscan, -, hmerge⟩ := h.exists_parts
  rw [← hmerge]
  refine congrArg plan.merge ?_
  have hall : ∀ (pieces : List Piece) (parts : List ResultSet), pieces ⊆ plan.pieces →
      List.Forall₂ (fun piece part => shelf.scan settings.origin piece = .ok part) pieces parts →
        parts = pieces.map part := by
    intro pieces parts hsub hfine
    induction hfine with
    | nil => rfl
    | @cons piece p pieces parts hpiece _ ih =>
      obtain ⟨hmem, hrest⟩ := List.cons_subset.mp hsub
      have hknown := hscan piece hmem
      rw [hpiece] at hknown
      rw [List.map_cons, ih hrest, Except.ok.inj hknown]
  exact hall _ _ (List.Subset.refl _) hparts

theorem columns_ne_nil (h : Answerable shelf settings select plan) : plan.columns ≠ [] := by
  obtain ⟨quantum, split, spans, hplanned⟩ := Schema.exists_planned h.planned
  intro hnil
  have hnames : shelf.schema.outputNames select.projection = [] := by
    rw [← hplanned.names, hnil, List.map_nil]
  cases hprojection : select.projection with
  | all =>
    rw [hprojection] at hnames
    have hflaw := (Schema.check_iff_noFlaws.mp h.sound.checked).1
    rw [Schema.nameFlaw?, List.map_eq_nil_iff.mp hnames] at hflaw
    split_ifs at hflaw with hname hempty
    exact hempty rfl
  | columns names =>
    rw [hprojection] at hnames
    exact h.projected (by rw [hprojection, show names = [] from hnames])

end Answerable

end Timeslice
