import Timeslice.Cluster.Scan
import Timeslice.Predicate.Bounds
import Timeslice.Proofs.Predicate.Reading

/-!
# What bounds leave out and what the residual decides

A row whose time lies in the bounds of a predicate meets the predicate exactly if it meets the
residual, and a row whose time does not lie in them does not meet the predicate.
-/

namespace Timeslice

namespace Bounds

structure Admits (b : Bounds) (t : Int64) : Prop where
  lower : ∀ l ∈ b.lower, l.toInt ≤ t.toInt
  upper : ∀ u ∈ b.upper, t.toInt < u.toInt

variable {b b' : Bounds} {t instant : Int64}

theorem toInt_max (a b : Int64) : (max a b).toInt = max a.toInt b.toInt := by
  change (if a ≤ b then b else a).toInt = _
  simp only [Int64.le_iff_toInt_le]
  split_ifs <;> omega

theorem toInt_min (a b : Int64) : (min a b).toInt = min a.toInt b.toInt := by
  change (if a ≤ b then a else b).toInt = _
  simp only [Int64.le_iff_toInt_le]
  split_ifs <;> omega

theorem admits_raise : (b.raise instant).Admits t ↔ b.Admits t ∧ instant.toInt ≤ t.toInt := by
  have hlower : (∀ l ∈ (b.raise instant).lower, l.toInt ≤ t.toInt) ↔
      (∀ l ∈ b.lower, l.toInt ≤ t.toInt) ∧ instant.toInt ≤ t.toInt := by
    cases hl : b.lower with
    | none => simp [raise, hl]
    | some l =>
      simp only [raise, hl, Option.elim_some, Option.mem_some_iff, forall_eq', toInt_max]
      omega
  exact ⟨fun h => ⟨⟨(hlower.mp h.lower).1, h.upper⟩, (hlower.mp h.lower).2⟩,
    fun h => ⟨hlower.mpr ⟨h.1.lower, h.2⟩, h.1.upper⟩⟩

theorem admits_cap : (b.cap instant).Admits t ↔ b.Admits t ∧ t.toInt < instant.toInt := by
  have hupper : (∀ u ∈ (b.cap instant).upper, t.toInt < u.toInt) ↔
      (∀ u ∈ b.upper, t.toInt < u.toInt) ∧ t.toInt < instant.toInt := by
    cases hu : b.upper with
    | none => simp [cap, hu]
    | some u =>
      simp only [cap, hu, Option.elim_some, Option.mem_some_iff, forall_eq', toInt_min]
      omega
  exact ⟨fun h => ⟨⟨h.lower, (hupper.mp h.upper).1⟩, (hupper.mp h.upper).2⟩,
    fun h => ⟨h.1.lower, hupper.mpr ⟨h.1.upper, h.2⟩⟩⟩

theorem toInt_after {next : Int64} (h : after instant = .ok next) :
    next.toInt = instant.toInt + 1 := by
  unfold after at h
  split at h
  · next v hv =>
    cases h
    exact Word.toInt_of_signed64? hv
  · cases h

theorem admits_restrict {comparator : Comparator} (h : b.restrict comparator instant = .ok b') :
    b'.Admits t ↔ b.Admits t ∧ comparator.holds (Cell.wordOrder t instant) = true := by
  have horder : ∀ a c : Int, (compare a c = .lt ↔ a < c) ∧ (compare a c = .eq ↔ a = c) ∧
      (compare a c = .gt ↔ c < a) := fun a c =>
    ⟨Int.compare_eq_lt, Int.compare_eq_eq, Int.compare_eq_gt⟩
  unfold Cell.wordOrder
  obtain ⟨hlt, heq, hgt⟩ := horder t.toInt instant.toInt
  cases comparator with
  | greater =>
    obtain ⟨next, hnext, rfl⟩ := Except.exists_of_map h
    rw [admits_raise, toInt_after hnext, Comparator.holds, beq_iff_eq, hgt]
    exact Iff.rfl
  | greaterOrEqual =>
    cases h
    rw [admits_raise, Comparator.holds, bne_iff_ne, ne_eq, hlt, Int.not_lt]
  | less =>
    cases h
    rw [admits_cap, Comparator.holds, beq_iff_eq, hlt]
  | lessOrEqual =>
    obtain ⟨next, hnext, rfl⟩ := Except.exists_of_map h
    rw [admits_cap, toInt_after hnext, Comparator.holds, bne_iff_ne, ne_eq, hgt, Int.not_lt]
    exact and_congr_right fun _ => Int.lt_add_one_iff
  | equal =>
    obtain ⟨next, hnext, rfl⟩ := Except.exists_of_map h
    rw [admits_cap, admits_raise, toInt_after hnext, Comparator.holds, beq_iff_eq, heq, and_assoc]
    exact and_congr_right fun _ => by omega
  | notEqual => cases h

theorem residual_restrict {comparator : Comparator} (h : b.restrict comparator instant = .ok b') :
    b'.residual = b.residual := by
  cases comparator with
  | greater | lessOrEqual | equal => obtain ⟨next, hnext, rfl⟩ := Except.exists_of_map h; rfl
  | greaterOrEqual | less => cases h; rfl
  | notEqual => cases h

def isBounded (b : Bounds) : Bool :=
  b.lower.isSome || b.upper.isSome

theorem isBounded_restrict {comparator : Comparator} (h : b.restrict comparator instant = .ok b') :
    b'.isBounded = true := by
  cases comparator with
  | greater | lessOrEqual | equal =>
    obtain ⟨next, hnext, rfl⟩ := Except.exists_of_map h
    simp [isBounded, raise, cap]
  | greaterOrEqual | less => cases h; simp [isBounded, raise, cap]
  | notEqual => cases h

theorem add_cases {column : String} {term : Predicate} (h : b.add column term = .ok b') :
    (∃ c instant, term = .compare c ∧ c.column = column ∧ c.literal.millis? = some instant ∧
        b.restrict c.comparator instant = .ok b') ∨
      (term.mentions column = false ∧
        b' = { b with residual := some (.conjoin b.residual term) }) := by
  cases term with
  | compare c =>
    rw [add] at h
    split_ifs at h with hcolumn
    · cases hmillis : c.literal.millis? with
      | none => simp [hmillis] at h
      | some instant =>
        rw [hmillis] at h
        exact .inl ⟨c, instant, rfl, hcolumn, hmillis, h⟩
    · cases h
      exact .inr ⟨by simpa [Predicate.mentions, Predicate.columns] using Ne.symm hcolumn, rfl⟩
  | and left right | or left right =>
    simp only [add] at h
    split_ifs at h with hmentions
    cases h
    exact .inr ⟨by simpa using hmentions, rfl⟩

/-- How bounds take up terms joined by AND, one after the other: a comparison of the column with an
instant restricts them, and a term that leaves the column alone joins the residual. -/
inductive Adds (column : String) : Bounds → List Predicate → Bounds → Prop where
  | nil (b : Bounds) : Adds column b [] b
  | restricts {b next b' : Bounds} {c : Comparison} {instant : Int64} {rest : List Predicate}
    (column_eq : c.column = column) (millis : c.literal.millis? = some instant)
    (restrict : b.restrict c.comparator instant = .ok next) (more : Adds column next rest b') :
    Adds column b (.compare c :: rest) b'
  | joins {b b' : Bounds} {term : Predicate} {rest : List Predicate}
    (avoids : term.mentions column = false)
    (more : Adds column { b with residual := some (.conjoin b.residual term) } rest b') :
    Adds column b (term :: rest) b'

theorem adds_of_addAll {column : String} {terms : List Predicate}
    (h : b.addAll column terms = .ok b') : Adds column b terms b' := by
  induction terms generalizing b with
  | nil =>
    cases h
    exact .nil _
  | cons term rest ih =>
    rw [addAll] at h
    split at h
    · next b1 hadd =>
      rcases add_cases hadd with ⟨c, instant, rfl, hcolumn, hmillis, hrestrict⟩ | ⟨havoids, rfl⟩
      · exact .restricts hcolumn hmillis hrestrict (ih h)
      · exact .joins havoids (ih h)
    · cases h

end Bounds

namespace Predicate

section Terms

variable (columns : List Column) (row : Row)

/-- Evaluates terms joined by AND, up to the first one that is not true. -/
def evaluateAll : List Predicate → Except EvaluationFault Bool
  | [] => .ok true
  | p :: rest =>
    (p.evaluate columns row).bind fun b => if b then evaluateAll rest else .ok false

theorem evaluateAll_append (ps qs : List Predicate) :
    evaluateAll columns row (ps ++ qs) =
      (evaluateAll columns row ps).bind fun b =>
        if b then evaluateAll columns row qs else .ok false := by
  induction ps with
  | nil => rfl
  | cons p ps ih =>
    rw [List.cons_append, evaluateAll, evaluateAll, ih]
    rcases p.evaluate columns row with f | b
    · rfl
    · cases b <;> rfl

theorem evaluateAll_singleton (p : Predicate) :
    evaluateAll columns row [p] = p.evaluate columns row := by
  rw [evaluateAll, evaluateAll]
  rcases p.evaluate columns row with f | b
  · rfl
  · cases b <;> rfl

theorem evaluateAll_conjuncts (p : Predicate) :
    evaluateAll columns row p.conjuncts = p.evaluate columns row := by
  induction p with
  | compare c => exact evaluateAll_singleton columns row (.compare c)
  | or left right => exact evaluateAll_singleton columns row (.or left right)
  | and left right ihl ihr => rw [conjuncts, evaluateAll_append, ihl, ihr, evaluate_and]

theorem satisfies_conjoin (before : Option Predicate) (p : Predicate) :
    Shelf.satisfies columns (some (conjoin before p)) row =
      (Shelf.satisfies columns before row).bind fun b =>
        if b then p.evaluate columns row else .ok false := by
  cases before with
  | none => rfl
  | some q => exact evaluate_and columns row q p

end Terms

end Predicate

namespace Bounds

theorem evaluate_timestamp {c : Comparison} {t instant : Int64}
    (hmillis : c.literal.millis? = some instant) :
    c.evaluate (.timestamp t) = .ok (c.comparator.holds (Cell.wordOrder t instant)) := by
  have horder : (Cell.timestamp t).orderTo? c.literal = some (some (Cell.wordOrder t instant)) := by
    cases hl : c.literal with
    | integer v =>
      rw [hl] at hmillis
      cases hmillis
      rfl
    | text s =>
      rw [hl] at hmillis
      rw [Cell.orderTo?, show DateText.millis? s = some instant from hmillis]
      rfl
    | decimal v | truth v => rw [hl] at hmillis; cases hmillis
  simp [Comparison.evaluate, Cell.isNull, horder]

section Rows

variable {columns : List Column} {row : Row} {column : String} {b b' : Bounds} {t : Int64}

theorem evaluate_of_bound (hcell : Predicate.cellAt? columns row column = some (.timestamp t))
    {c : Comparison} {instant : Int64} (hcolumn : c.column = column)
    (hmillis : c.literal.millis? = some instant) :
    (Predicate.compare c).evaluate columns row =
      .ok (c.comparator.holds (Cell.wordOrder t instant)) := by
  rw [Predicate.evaluate, hcolumn, hcell]
  exact evaluate_timestamp hmillis

/-- On a row that the bounds admit, the terms evaluate to what the residual evaluates to. -/
theorem satisfies_of_admits (hcell : Predicate.cellAt? columns row column = some (.timestamp t))
    {terms : List Predicate} (h : b.addAll column terms = .ok b') (ht : b'.Admits t) :
    b.Admits t ∧ Shelf.satisfies columns b'.residual row =
      (Shelf.satisfies columns b.residual row).bind fun v =>
        if v then Predicate.evaluateAll columns row terms else .ok false := by
  replace h := adds_of_addAll h
  induction h with
  | nil b =>
    refine ⟨ht, ?_⟩
    rcases Shelf.satisfies columns b.residual row with f | v
    · rfl
    · cases v <;> rfl
  | restricts hcolumn hmillis hrestrict _ ih =>
    obtain ⟨hadmits, hsatisfies⟩ := ih ht
    rw [admits_restrict hrestrict] at hadmits
    refine ⟨hadmits.1, ?_⟩
    rw [hsatisfies, residual_restrict hrestrict, Predicate.evaluateAll,
      evaluate_of_bound hcell hcolumn hmillis, hadmits.2]
    rfl
  | @joins b _ _ _ _ _ ih =>
    obtain ⟨hadmits, hsatisfies⟩ := ih ht
    refine ⟨⟨hadmits.lower, hadmits.upper⟩, ?_⟩
    rw [hsatisfies, Predicate.satisfies_conjoin, Predicate.evaluateAll]
    rcases Shelf.satisfies columns b.residual row with f | v
    · rfl
    · cases v <;> rfl

theorem evaluateAll_of_not_admits
    (hcell : Predicate.cellAt? columns row column = some (.timestamp t)) {terms : List Predicate}
    (h : b.addAll column terms = .ok b') (hb : b.Admits t) (ht : ¬ b'.Admits t) :
    Predicate.evaluateAll columns row terms ≠ .ok true := by
  replace h := adds_of_addAll h
  induction h with
  | nil => exact absurd hb ht
  | @restricts _ _ _ c instant _ hcolumn hmillis hrestrict _ ih =>
    rw [Predicate.evaluateAll, evaluate_of_bound hcell hcolumn hmillis]
    by_cases hholds : c.comparator.holds (Cell.wordOrder t instant) = true
    · rw [hholds]
      exact ih ((admits_restrict hrestrict).mpr ⟨hb, hholds⟩) ht
    · simp [Except.bind, hholds]
  | @joins _ _ term _ _ _ ih =>
    have hrest := ih ⟨hb.lower, hb.upper⟩ ht
    rw [Predicate.evaluateAll]
    rcases term.evaluate columns row with f | v
    · simp [Except.bind]
    · cases v with
      | true => exact hrest
      | false => simp [Except.bind]

end Rows

theorem isBounded_addAll {column : String} {b b' : Bounds} {terms : List Predicate}
    (h : b.addAll column terms = .ok b') :
    b'.isBounded = (b.isBounded || terms.any fun q => q.mentions column) := by
  replace h := adds_of_addAll h
  induction h with
  | nil => simp
  | @restricts _ _ _ c _ _ hcolumn _ hrestrict _ ih =>
    have hmentions : (Predicate.compare c).mentions column = true := by
      simp [Predicate.mentions, Predicate.columns, hcolumn]
    rw [ih, List.any_cons, isBounded_restrict hrestrict, hmentions, Bool.true_or, Bool.or_true]
  | joins havoids _ ih =>
    rw [ih, List.any_cons, havoids, Bool.false_or]
    rfl

theorem all_addAll {P : Comparison → Prop} {column : String} {b b' : Bounds}
    {terms : List Predicate} (h : b.addAll column terms = .ok b')
    (hb : ∀ p ∈ b.residual, p.All P) (hterms : ∀ p ∈ terms, p.All P) :
    ∀ p ∈ b'.residual, p.All P := by
  replace h := adds_of_addAll h
  induction h with
  | nil => exact hb
  | restricts _ _ hrestrict _ ih =>
    refine ih ?_ fun p hp => hterms p (List.mem_cons_of_mem _ hp)
    rw [residual_restrict hrestrict]
    exact hb
  | @joins _ _ term _ _ _ ih =>
    refine ih ?_ fun p hp => hterms p (List.mem_cons_of_mem _ hp)
    rintro p ⟨⟩
    exact Predicate.all_conjoin hb (hterms term List.mem_cons_self)

theorem close_spec {b : Bounds} {split : TimeSplit} (h : b.close = .ok split) :
    split.residual = b.residual ∧ split.span.isSome = b.isBounded ∧
      ∀ t, b.Admits t ↔ ∀ s ∈ split.span, s.contains t = true := by
  have hadmits (t : Int64) : b.Admits t ↔ (∀ l ∈ b.lower, l.toInt ≤ t.toInt) ∧
      ∀ u ∈ b.upper, t.toInt < u.toInt := ⟨fun h => ⟨h.lower, h.upper⟩, fun h => ⟨h.1, h.2⟩⟩
  unfold close at h
  cases hl : b.lower with
  | none =>
    cases hu : b.upper with
    | none =>
      rw [hl, hu] at h
      cases h
      simp [isBounded, hl, hu, hadmits]
    | some u => rw [hl, hu] at h; cases h
  | some l =>
    cases hu : b.upper with
    | none => rw [hl, hu] at h; cases h
    | some u =>
      rw [hl, hu] at h
      cases h
      simp [isBounded, hl, hu, hadmits, Span.contains_iff]

end Bounds

namespace Predicate

theorem all_conjuncts {P : Comparison → Prop} {p : Predicate} (h : p.All P) :
    ∀ q ∈ p.conjuncts, q.All P := by
  induction p with
  | compare c => simpa [conjuncts] using h
  | or left right => simpa [conjuncts] using h
  | and left right ihl ihr =>
    intro q hq
    rcases List.mem_append.mp hq with hq | hq
    · exact ihl h.1 q hq
    · exact ihr h.2 q hq

theorem mentions_conjuncts (column : String) (p : Predicate) :
    (p.conjuncts.any fun q => q.mentions column) = p.mentions column := by
  induction p with
  | compare c => simp [conjuncts]
  | or left right => simp [conjuncts]
  | and left right ihl ihr =>
    rw [conjuncts, List.any_append, ihl, ihr]
    simp [mentions, columns]

theorem exists_bounds_of_splitTime {column : String} {p : Predicate} {split : TimeSplit}
    (h : p.splitTime column = .ok split) :
    ∃ b, Bounds.unbounded.addAll column p.conjuncts = .ok b ∧ b.close = .ok split := by
  unfold splitTime at h
  split at h
  · cases h
  · next b hb =>
    refine ⟨b, hb, ?_⟩
    split at h <;> cases h
    assumption

section Split

variable {column : String} {p : Predicate} {split : TimeSplit}

/-- On a row whose time lies in the span, a predicate evaluates to what its residual does. -/
theorem satisfies_of_splitTime (h : p.splitTime column = .ok split) {columns : List Column}
    {row : Row} {t : Int64} (hcell : cellAt? columns row column = some (.timestamp t))
    (ht : ∀ s ∈ split.span, s.contains t = true) :
    Shelf.satisfies columns split.residual row = p.evaluate columns row := by
  obtain ⟨b, hb, hclose⟩ := exists_bounds_of_splitTime h
  obtain ⟨hresidual, -, hadmits⟩ := Bounds.close_spec hclose
  have hsatisfies := (Bounds.satisfies_of_admits hcell hb ((hadmits t).mpr ht)).2
  rw [hresidual, hsatisfies]
  exact evaluateAll_conjuncts columns row p

/-- On a row whose time does not lie in the span, a predicate is not true. -/
theorem evaluate_of_splitTime (h : p.splitTime column = .ok split) {columns : List Column}
    {row : Row} {t : Int64} (hcell : cellAt? columns row column = some (.timestamp t))
    (ht : ∃ s ∈ split.span, s.contains t = false) : p.evaluate columns row ≠ .ok true := by
  obtain ⟨b, hb, hclose⟩ := exists_bounds_of_splitTime h
  obtain ⟨-, -, hadmits⟩ := Bounds.close_spec hclose
  obtain ⟨s, hs, ht⟩ := ht
  rw [← evaluateAll_conjuncts]
  refine Bounds.evaluateAll_of_not_admits hcell hb ⟨by rintro l ⟨⟩, by rintro u ⟨⟩⟩ ?_
  intro hin
  have := (hadmits t).mp hin s hs
  simp [ht] at this

theorem isSome_span_of_splitTime (h : p.splitTime column = .ok split) :
    split.span.isSome = p.mentions column := by
  obtain ⟨b, hb, hclose⟩ := exists_bounds_of_splitTime h
  rw [(Bounds.close_spec hclose).2.1, Bounds.isBounded_addAll hb, mentions_conjuncts]
  rfl

theorem all_residual_of_splitTime {P : Comparison → Prop} (h : p.splitTime column = .ok split)
    (hp : p.All P) : ∀ r ∈ split.residual, r.All P := by
  obtain ⟨b, hb, hclose⟩ := exists_bounds_of_splitTime h
  rw [(Bounds.close_spec hclose).1]
  exact Bounds.all_addAll hb (by rintro q ⟨⟩) (all_conjuncts hp)

end Split

end Predicate

end Timeslice
