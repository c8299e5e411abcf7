import Mathlib.Data.List.Pairwise
import Timeslice.Proofs.Query.Scanning

/-!
# Merging answers that hold too much

A store may answer a piece with rows outside the span of the piece. The merge keeps of each answer
the rows that belong to its piece, so it comes to the same as if there were no others, and a row
that is in several answers is kept once.
-/

namespace Timeslice

/-- The rows of `own` in their order, with any rows that fail the test among them. -/
inductive Padded (test : Row → Bool) : List Row → List Row → Prop where
  | nil : Padded test [] []
  | own {row : Row} {own rows : List Row} : test row = true → Padded test own rows →
      Padded test (row :: own) (row :: rows)
  | stray {row : Row} {own rows : List Row} : test row = false → Padded test own rows →
      Padded test own (row :: rows)

theorem Padded.filter_eq {test : Row → Bool} {own rows : List Row} (h : Padded test own rows) :
    rows.filter test = own := by
  induction h with
  | nil => rfl
  | own htest _ ih => rw [List.filter_cons_of_pos htest, ih]
  | stray htest _ ih => rw [List.filter_cons_of_neg (by simp [htest]), ih]

theorem Padded.passes {test : Row → Bool} {own rows : List Row} (h : Padded test own rows) :
    ∀ row ∈ own, test row = true := by
  intro row hrow
  rw [← h.filter_eq] at hrow
  exact (List.mem_filter.mp hrow).2

theorem padded_filter (test : Row → Bool) (rows : List Row) :
    Padded test (rows.filter test) rows := by
  induction rows with
  | nil => exact .nil
  | cons row rows ih =>
    cases htest : test row with
    | true =>
      rw [List.filter_cons_of_pos htest]
      exact .own htest ih
    | false =>
      rw [List.filter_cons_of_neg (by simp [htest])]
      exact .stray htest ih

theorem padded_self {test : Row → Bool} {own : List Row} (h : ∀ row ∈ own, test row = true) :
    Padded test own own := by
  have hpadded := padded_filter test own
  rwa [List.filter_eq_self.mpr h] at hpadded

namespace Plan

def timeAt? (plan : Plan) (column : String) (row : Row) : Option Int64 :=
  match Predicate.cellAt? plan.columns row column with
  | some (.timestamp t) => some t
  | _ => none

/-- The row has a time, and it lies in the span of the piece. -/
def owns (plan : Plan) (piece : Piece) (row : Row) : Bool :=
  piece.span.any fun s => (plan.timeAt? piece.timeColumn row).any s.contains

variable {plan : Plan} {own : Piece → List Row} {parts : List ResultSet}

theorem owns_iff {piece : Piece} {row : Row} {s : Span} (hspan : piece.span = some s) :
    plan.owns piece row = true ↔
      ∃ t, plan.timeAt? piece.timeColumn row = some t ∧ s.contains t = true := by
  simp [owns, hspan, Option.any_eq_true]

/-- The merge looks for the time of a row in the right place. -/
theorem keeps_eq_owns {piece : Piece} {s : Span} {index : Nat}
    (hspan : piece.span = some s) (hindex : plan.timeIndex = some index)
    (hcolumn : (plan.columns.findIdx? fun c => c.name == piece.timeColumn) = some index)
    (row : Row) : plan.keeps piece row = plan.owns piece row := by
  simp only [keeps, owns, timeAt?, Predicate.cellAt?, hspan, hindex, hcolumn, Option.any_some,
    Option.bind_some]
  rcases row[index]? with _ | cell
  · rfl
  · cases cell <;> rfl

def Apart (plan : Plan) (pieces : List Piece) : Prop :=
  pieces.Pairwise fun p q => ∀ row, ¬(plan.owns p row = true ∧ plan.owns q row = true)

theorem Apart.eq_of_owns {pieces : List Piece} (h : plan.Apart pieces) {p q : Piece}
    (hp : p ∈ pieces) (hq : q ∈ pieces) {row : Row} (hprow : plan.owns p row = true)
    (hqrow : plan.owns q row = true) : p = q := by
  have : Std.Symm fun p q : Piece => ∀ row, ¬(plan.owns p row = true ∧ plan.owns q row = true) :=
    ⟨fun p q hapart row hboth => hapart row hboth.symm⟩
  by_contra hne
  exact List.Pairwise.forall h hp hq hne row ⟨hprow, hqrow⟩

theorem filter_eq_nil_of_apart {p : Piece} {pieces : List Piece}
    (hown : ∀ q ∈ pieces, ∀ row ∈ own q, plan.owns q row = true)
    (hp : ∀ q ∈ pieces, ∀ row, ¬(plan.owns p row = true ∧ plan.owns q row = true)) :
    (pieces.flatMap own).filter (plan.owns p) = [] := by
  rw [List.filter_eq_nil_iff]
  intro row hrow hboth
  obtain ⟨q, hq, hmem⟩ := List.mem_flatMap.mp hrow
  exact hp q hq row ⟨hboth, hown q hq row hmem⟩

/-- Of the rows of all pieces, those that belong to one piece are the rows of that piece. -/
theorem filter_owns_flatMap {pieces : List Piece} (hapart : plan.Apart pieces)
    (hown : ∀ q ∈ pieces, ∀ row ∈ own q, plan.owns q row = true) {p : Piece} (hp : p ∈ pieces) :
    (pieces.flatMap own).filter (plan.owns p) = own p := by
  induction pieces with
  | nil => cases hp
  | cons q pieces ih =>
    obtain ⟨hhead, htail⟩ := List.pairwise_cons.mp hapart
    obtain ⟨hq, hrest⟩ := List.forall_mem_cons.mp hown
    rw [List.flatMap_cons, List.filter_append]
    rcases List.mem_cons.mp hp with rfl | hp
    · rw [filter_eq_nil_of_apart hrest hhead, List.append_nil]
      exact List.filter_eq_self.mpr hq
    · have hnone : (own q).filter (plan.owns p) = [] :=
        List.filter_eq_nil_iff.mpr fun row hrow hboth => hhead p hp row ⟨hq row hrow, hboth⟩
      rw [hnone, List.nil_append, ih htail hrest hp]

theorem flatMap_zip_filter {pieces : List Piece}
    (hkeeps : ∀ piece ∈ pieces, ∀ row, plan.keeps piece row = plan.owns piece row)
    (h : List.Forall₂ (fun piece part => Padded (plan.owns piece) (own piece) part.rows) pieces
      parts) :
    ((pieces.zip parts).flatMap fun (piece, part) => part.rows.filter (plan.keeps piece)) =
      pieces.flatMap own := by
  induction h with
  | nil => rfl
  | @cons piece part pieces parts hpart _ ih =>
    obtain ⟨hfirst, hrest⟩ := List.forall_mem_cons.mp hkeeps
    have hown : part.rows.filter (plan.keeps piece) = own piece := by
      rw [funext hfirst, hpart.filter_eq]
    simp only [List.zip_cons_cons, List.flatMap_cons, ih hrest, hown]

theorem forall₂_passes {pieces : List Piece}
    (h : List.Forall₂ (fun piece part => Padded (plan.owns piece) (own piece) part.rows) pieces
      parts) : ∀ piece ∈ pieces, ∀ row ∈ own piece, plan.owns piece row = true :=
  ((List.forall₂_and_left _ _).mp (h.imp fun _ _ hpart => ⟨hpart.passes, hpart⟩)).1

theorem forall₂_padded_self {pieces : List Piece}
    (hown : ∀ piece ∈ pieces, ∀ row ∈ own piece, plan.owns piece row = true)
    (hrows : parts.map ResultSet.rows = pieces.map own) :
    List.Forall₂ (fun piece part => Padded (plan.owns piece) (own piece) part.rows) pieces
      parts := by
  have heq : List.Forall₂ (fun piece (part : ResultSet) => own piece = part.rows) pieces parts := by
    refine (List.forall₂_map_left_iff
      (R := fun rows (part : ResultSet) => rows = part.rows)).mp ?_
    rw [← hrows, List.forall₂_map_left_iff, List.forall₂_same]
    exact fun _ _ => rfl
  refine ((List.forall₂_and_left _ _).mpr ⟨hown, heq⟩).imp ?_
  rintro piece part ⟨hpass, hsame⟩
  rw [← hsame]
  exact padded_self hpass

end Plan

namespace Schema.Planned

variable {s : Schema} {settings : Settings} {select : Select} {plan : Plan} {quantum : Quantum}
  {span : Span} {residual : Option Predicate} {spans : List (Option Span)}

theorem exists_shares
    (h : s.Planned settings select plan quantum ⟨some span, residual⟩ spans) :
    ∃ qs first, (quantum.grid settings.origin).Shares span first qs ∧
      plan.pieces = qs.map fun q =>
        ⟨s.outputNames select.projection, s.timeColumn, some q, residual.map Predicate.text⟩ := by
  rcases Schema.spans_spec h.cut with ⟨hnone, -⟩ | ⟨_, qs, first, heq, rfl, hshares⟩
  · cases hnone
  · cases heq
    exact ⟨qs, first, hshares, by rw [h.pieces, List.map_map]; rfl⟩

theorem apart (h : s.Planned settings select plan quantum ⟨some span, residual⟩ spans) :
    plan.Apart plan.pieces := by
  obtain ⟨qs, first, hshares, hpieces⟩ := h.exists_shares
  rw [hpieces, Plan.Apart, List.pairwise_map, List.pairwise_iff_getElem]
  intro i j hi hj hij row ⟨hp, hq⟩
  obtain ⟨t, htime, ht⟩ := (Plan.owns_iff rfl).mp hp
  obtain ⟨u, hsame, hu⟩ := (Plan.owns_iff rfl).mp hq
  obtain rfl := Option.some.inj (htime.symm.trans hsame)
  have hfirst := ((hshares.contains i hi t).mp ht).2
  have hsecond := ((hshares.contains j hj t).mp hu).2
  omega

theorem exists_owns_iff (h : s.Planned settings select plan quantum ⟨some span, residual⟩ spans)
    (row : Row) : (∃ piece ∈ plan.pieces, plan.owns piece row = true) ↔
      ∃ t, plan.timeAt? s.timeColumn row = some t ∧ span.contains t = true := by
  obtain ⟨qs, first, hshares, hpieces⟩ := h.exists_shares
  rw [hpieces]
  constructor
  · rintro ⟨piece, hpiece, howns⟩
    obtain ⟨q, hq, rfl⟩ := List.mem_map.mp hpiece
    obtain ⟨i, hi, rfl⟩ := List.mem_iff_getElem.mp hq
    obtain ⟨t, htime, ht⟩ := (Plan.owns_iff rfl).mp howns
    exact ⟨t, htime, ((hshares.contains i hi t).mp ht).1⟩
  · rintro ⟨t, htime, ht⟩
    obtain ⟨hlow, hhigh⟩ := hshares.covers t ht
    obtain ⟨i, hi⟩ := Int.eq_ofNat_of_zero_le (Int.sub_nonneg_of_le hlow)
    have hlt : i < qs.length := by omega
    have hcontains := (hshares.contains i hlt t).mpr ⟨ht, by omega⟩
    exact ⟨_, List.mem_map.mpr ⟨qs[i], List.getElem_mem hlt, rfl⟩,
      (Plan.owns_iff rfl).mpr ⟨t, htime, hcontains⟩⟩

/-- The time column is where the merge looks for it, at its first place if there are more. -/
theorem keeps_eq_owns (h : s.Planned settings select plan quantum ⟨some span, residual⟩ spans)
    (htime : s.timeColumn ∈ s.outputNames select.projection) {piece : Piece}
    (hpiece : piece ∈ plan.pieces) (row : Row) : plan.keeps piece row = plan.owns piece row := by
  obtain ⟨qs, first, hshares, hpieces⟩ := h.exists_shares
  rw [hpieces] at hpiece
  obtain ⟨q, hq, rfl⟩ := List.mem_map.mp hpiece
  obtain ⟨index, hindex⟩ : ∃ index, plan.timeIndex = some index := by
    rw [h.timeIndex, ← Option.isSome_iff_exists, List.findIdx?_isSome]
    exact List.any_eq_true.mpr ⟨_, htime, beq_self_eq_true _⟩
  refine Plan.keeps_eq_owns rfl hindex ?_ row
  rw [← hindex, h.timeIndex, ← h.names, List.findIdx?_map]
  rfl

theorem merge_eq_own (h : s.Planned settings select plan quantum ⟨some span, residual⟩ spans)
    (htime : s.timeColumn ∈ s.outputNames select.projection) {own : Piece → List Row}
    {parts : List ResultSet} (hparts : List.Forall₂
      (fun piece part => Padded (plan.owns piece) (own piece) part.rows) plan.pieces parts) :
    plan.merge parts = .ofRows plan.columns (plan.pieces.flatMap own) := by
  rw [Plan.merge,
    Plan.flatMap_zip_filter (fun piece hpiece => h.keeps_eq_owns htime hpiece) hparts]

end Schema.Planned

namespace Plan

/-- What the merge makes of answers that hold the rows of their own pieces and others. -/
structure MergesOwn (plan : Plan) (timeColumn : String) (s : Span) (own : Piece → List Row)
    (parts : List ResultSet) : Prop where
  same : ∀ others : List ResultSet, others.map ResultSet.rows = plan.pieces.map own →
    plan.merge parts = plan.merge others
  rows : (plan.merge parts).rows = plan.pieces.flatMap own
  inside : ∀ row ∈ (plan.merge parts).rows,
    ∃ t, plan.timeAt? timeColumn row = some t ∧ s.contains t = true
  ordered : List.Forall₂ (fun piece part => (plan.merge parts).rows.filter (plan.owns piece) =
    part.rows.filter (plan.owns piece)) plan.pieces parts
  claimed : ∀ row t, plan.timeAt? timeColumn row = some t → s.contains t = true →
    ∃! piece, piece ∈ plan.pieces ∧ plan.owns piece row = true
  /-- A row is there as often as in the answer to its piece, whatever the other answers hold. -/
  once : List.Forall₂ (fun piece part => ∀ row, plan.owns piece row = true →
    (plan.merge parts).rows.count row = part.rows.count row) plan.pieces parts
  columns : (plan.merge parts).columns = [] ↔ (plan.merge parts).rows = []

/-- Answers that hold the rows of their own pieces merge into these rows, in the order of the
pieces, whatever else they hold. -/
theorem mergesOwn {s : Schema} {settings : Settings} {select : Select} {plan : Plan} {span : Span}
    {residual : Option Predicate} {own : Piece → List Row} {parts : List ResultSet}
    (hplan : s.plan settings select = .ok plan)
    (hbounded : s.condition s.timeColumn select.predicate = .ok ⟨some span, residual⟩)
    (htime : s.timeColumn ∈ s.outputNames select.projection)
    (hparts : List.Forall₂ (fun piece part => Padded (plan.owns piece) (own piece) part.rows)
      plan.pieces parts) :
    plan.MergesOwn s.timeColumn span own parts := by
  obtain ⟨width, split, spans, h⟩ := Schema.exists_planned hplan
  obtain rfl := Except.ok.inj (h.condition.symm.trans hbounded)
  have hown := forall₂_passes hparts
  have hmerge := h.merge_eq_own htime hparts
  have hrows : (plan.merge parts).rows = plan.pieces.flatMap own := by
    rw [hmerge, ResultSet.rows_ofRows]
  have hordered : List.Forall₂ (fun piece part => (plan.merge parts).rows.filter
      (plan.owns piece) = part.rows.filter (plan.owns piece)) plan.pieces parts := by
    refine ((List.forall₂_and_left _ _).mpr ⟨fun _ hpiece => hpiece, hparts⟩).imp ?_
    rintro piece part ⟨hpiece, hpart⟩
    rw [hrows, filter_owns_flatMap h.apart hown hpiece, hpart.filter_eq]
  constructor
  case same =>
    intro others hothers
    rw [hmerge, h.merge_eq_own htime (forall₂_padded_self hown hothers)]
  case rows => exact hrows
  case inside =>
    intro row hrow
    rw [hrows] at hrow
    obtain ⟨piece, hpiece, hmem⟩ := List.mem_flatMap.mp hrow
    exact (h.exists_owns_iff row).mp ⟨piece, hpiece, hown piece hpiece row hmem⟩
  case ordered => exact hordered
  case claimed =>
    intro row t hrow ht
    obtain ⟨piece, hpiece, howns⟩ := (h.exists_owns_iff row).mpr ⟨t, hrow, ht⟩
    refine ⟨piece, ⟨hpiece, howns⟩, ?_⟩
    rintro other ⟨hother, hsame⟩
    exact h.apart.eq_of_owns hother hpiece hsame howns
  case once =>
    refine hordered.imp fun piece part heq row howns => ?_
    rw [← List.count_filter howns, heq, List.count_filter howns]
  case columns =>
    rw [hmerge]
    refine ResultSet.columns_ofRows_eq_nil_iff ?_
    rintro hnil
    rw [← h.names, hnil] at htime
    cases htime

end Plan

namespace Loads

def spread : List Row :=
  [[.timestamp 1000, .sint64 4], [.timestamp (-1), .null], [.timestamp 2000, .sint64 9],
    [.timestamp 999, .sint64 2], [.null, .sint64 7], [.sint64 5, .sint64 5],
    [.timestamp 1999, .null]]

end Loads

/-- The SELECT of loads, answered without regard to its bounds. -/
theorem merges_own_of_loads :
    Loads.plan.MergesOwn "time" ⟨0, 2000⟩
      (fun piece => Loads.spread.filter (Loads.plan.owns piece))
      [⟨Loads.plan.columns, Loads.spread⟩, ⟨Loads.plan.columns, Loads.spread⟩] :=
  have hbounded : Loads.schema.condition Loads.schema.timeColumn Loads.select.predicate =
      .ok ⟨some ⟨0, 2000⟩, none⟩ := by decide +kernel
  Plan.mergesOwn (Loads.plan_select 8) hbounded (by decide +kernel)
    (.cons (padded_filter _ _) (.cons (padded_filter _ _) .nil))

end Timeslice
