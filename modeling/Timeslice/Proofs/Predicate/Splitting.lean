import Timeslice.Proofs.Predicate.Bounds

/-!
# What a split predicate stands for

The residual is made of the terms that leave the time column alone, in their order. On a row that
has a time, a predicate with a value is true exactly if the time lies in the span and the residual
is true. Outside the span the residual may fail where the predicate has a value, for there a bound
keeps the terms behind it from being evaluated.
-/

namespace Timeslice

namespace Predicate

def terms (residual : Option Predicate) : List Predicate :=
  residual.elim [] conjuncts

theorem conjuncts_of_mem {p q : Predicate} (h : q ∈ p.conjuncts) : q.conjuncts = [q] := by
  induction p with
  | compare c =>
    obtain rfl := List.mem_singleton.mp h
    rfl
  | or left right =>
    obtain rfl := List.mem_singleton.mp h
    rfl
  | and left right ihl ihr =>
    rcases List.mem_append.mp h with h | h
    · exact ihl h
    · exact ihr h

theorem all_of_conjuncts {P : Comparison → Prop} {p : Predicate}
    (h : ∀ q ∈ p.conjuncts, q.All P) : p.All P := by
  induction p with
  | compare c => exact h _ List.mem_cons_self
  | or left right => exact h _ List.mem_cons_self
  | and left right ihl ihr =>
    exact ⟨ihl fun q hq => h q (List.mem_append_left _ hq),
      ihr fun q hq => h q (List.mem_append_right _ hq)⟩

theorem conjuncts_conjoin (before : Option Predicate) (p : Predicate) :
    (conjoin before p).conjuncts = terms before ++ p.conjuncts := by
  cases before with
  | none => rfl
  | some b => rfl

theorem terms_foldl_conjoin {qs : List Predicate} (h : ∀ q ∈ qs, q.conjuncts = [q])
    (before : Option Predicate) :
    terms (qs.foldl (fun before q => some (conjoin before q)) before) = terms before ++ qs := by
  induction qs generalizing before with
  | nil => exact (List.append_nil _).symm
  | cons q qs ih =>
    obtain ⟨hq, hqs⟩ := List.forall_mem_cons.mp h
    have hterms : terms (some (conjoin before q)) = terms before ++ [q] := by
      rw [← hq]
      exact conjuncts_conjoin before q
    rw [List.foldl_cons, ih hqs, hterms, List.append_assoc, List.singleton_append]

end Predicate

namespace Bounds

variable {column : String} {b b' : Bounds} {terms : List Predicate}

theorem residual_addAll (h : b.addAll column terms = .ok b') :
    b'.residual = (terms.filter fun q => !q.mentions column).foldl
      (fun before q => some (.conjoin before q)) b.residual := by
  replace h := adds_of_addAll h
  induction h with
  | nil => rfl
  | @restricts _ _ _ c _ _ hcolumn _ hrestrict _ ih =>
    have hmentions : (Predicate.compare c).mentions column = true := by
      simp [Predicate.mentions, Predicate.columns, hcolumn]
    rw [ih, residual_restrict hrestrict, List.filter_cons_of_neg (by simp [hmentions])]
  | joins havoids _ ih =>
    rw [ih, List.filter_cons_of_pos (by simp [havoids])]
    rfl

theorem add_of_avoids {term : Predicate} (h : term.mentions column = false) (b : Bounds) :
    b.add column term = .ok { b with residual := some (.conjoin b.residual term) } := by
  cases term with
  | compare c =>
    have hcolumn : c.column ≠ column := by
      rintro rfl
      simp [Predicate.mentions, Predicate.columns] at h
    rw [add, if_neg hcolumn]
  | and left right | or left right => simp [add, h]

theorem addAll_of_avoids (h : ∀ q ∈ terms, q.mentions column = false) (b : Bounds) :
    b.addAll column terms = .ok { b with
      residual := terms.foldl (fun before q => some (.conjoin before q)) b.residual } := by
  induction terms generalizing b with
  | nil => rfl
  | cons term rest ih =>
    obtain ⟨hterm, hrest⟩ := List.forall_mem_cons.mp h
    rw [addAll, add_of_avoids hterm]
    exact ih hrest _

theorem exists_instant_of_mentions (h : b.addAll column terms = .ok b') {q : Predicate}
    (hq : q ∈ terms) (hmentions : q.mentions column = true) :
    ∃ c instant, q = .compare c ∧ c.column = column ∧ c.literal.millis? = some instant := by
  replace h := adds_of_addAll h
  induction h with
  | nil => cases hq
  | @restricts _ _ _ c instant _ hcolumn hmillis _ _ ih =>
    rcases List.mem_cons.mp hq with rfl | hq
    · exact ⟨c, instant, rfl, hcolumn, hmillis⟩
    · exact ih hq
  | joins havoids _ ih =>
    rcases List.mem_cons.mp hq with rfl | hq
    · rw [hmentions] at havoids
      cases havoids
    · exact ih hq

end Bounds

namespace TimeSplit

def Covers (split : TimeSplit) (t : Int64) : Prop :=
  ∀ s ∈ split.span, s.contains t = true

/-- The span and the residual say what the predicate says, on each row with a time in the column. -/
structure StandsFor (split : TimeSplit) (column : String) (p : Predicate) : Prop where
  eq_true_iff : ∀ columns row t, Predicate.cellAt? columns row column = some (.timestamp t) →
    ∀ b, p.evaluate columns row = .ok b →
      (b = true ↔ split.Covers t ∧ Shelf.satisfies columns split.residual row = .ok true)
  decides : ∀ columns row t, Predicate.cellAt? columns row column = some (.timestamp t) →
    ∀ b, p.evaluate columns row = .ok b → split.Covers t →
      ∃ v, Shelf.satisfies columns split.residual row = .ok v
  /-- No row is let through on which the predicate is not true. -/
  sound : ∀ columns row t, Predicate.cellAt? columns row column = some (.timestamp t) →
    split.Covers t → Shelf.satisfies columns split.residual row = .ok true →
      p.evaluate columns row = .ok true
  avoids : ∀ r ∈ split.residual, r.mentions column = false
  terms_eq : Predicate.terms split.residual = p.conjuncts.filter fun q => !q.mentions column

end TimeSplit

namespace Predicate

theorem satisfies_eq_evaluateAll (columns : List Column) (residual : Option Predicate)
    (row : Row) :
    Shelf.satisfies columns residual row = evaluateAll columns row (terms residual) := by
  cases residual with
  | none => rfl
  | some p => exact (evaluateAll_conjuncts columns row p).symm

theorem satisfies_foldl_conjoin (columns : List Column) (row : Row) (p : Predicate) :
    Shelf.satisfies columns (p.conjuncts.foldl (fun before q => some (conjoin before q)) none) row =
      p.evaluate columns row := by
  rw [satisfies_eq_evaluateAll, terms_foldl_conjoin fun q hq => conjuncts_of_mem hq]
  exact evaluateAll_conjuncts columns row p

section Split

variable {column : String} {p : Predicate} {split : TimeSplit}

theorem terms_of_splitTime (h : p.splitTime column = .ok split) :
    terms split.residual = p.conjuncts.filter fun q => !q.mentions column := by
  obtain ⟨b, hb, hclose⟩ := exists_bounds_of_splitTime h
  rw [(Bounds.close_spec hclose).1, Bounds.residual_addAll hb, terms_foldl_conjoin]
  · rfl
  · exact fun q hq => conjuncts_of_mem (List.mem_filter.mp hq).1

theorem mentions_eq_false_of_terms (h : terms split.residual =
    p.conjuncts.filter fun q => !q.mentions column) :
    ∀ r ∈ split.residual, r.mentions column = false := by
  intro r hr
  have hterms : r.conjuncts = p.conjuncts.filter fun q => !q.mentions column := by
    rw [← h, show split.residual = some r from hr]
    rfl
  rw [← mentions_conjuncts, hterms, List.any_eq_false]
  intro q hq
  simpa using (List.mem_filter.mp hq).2

theorem all_of_splitTime {P : Comparison → Prop} (h : p.splitTime column = .ok split)
    (hbound : ∀ c instant, c.literal.millis? = some instant → P c)
    (hresidual : ∀ r ∈ split.residual, r.All P) : p.All P := by
  obtain ⟨b, hb, -⟩ := exists_bounds_of_splitTime h
  apply all_of_conjuncts
  intro q hq
  by_cases hmentions : q.mentions column = true
  · obtain ⟨c, instant, rfl, -, hmillis⟩ := Bounds.exists_instant_of_mentions hb hq hmentions
    exact hbound c instant hmillis
  · have hleft : q ∈ terms split.residual := by
      rw [terms_of_splitTime h]
      exact List.mem_filter.mpr ⟨hq, by simpa using hmentions⟩
    cases hr : split.residual with
    | none =>
      rw [hr] at hleft
      cases hleft
    | some r =>
      rw [hr] at hleft
      exact all_conjuncts (hresidual r hr) q hleft

/-- On a row with a time, a predicate that has a value has the one that the span and the residual
say. -/
theorem eq_true_iff_of_splitTime (h : p.splitTime column = .ok split) {columns : List Column}
    {row : Row} {t : Int64} (hcell : cellAt? columns row column = some (.timestamp t)) {b : Bool}
    (hb : p.evaluate columns row = .ok b) :
    b = true ↔ split.Covers t ∧ Shelf.satisfies columns split.residual row = .ok true := by
  by_cases hcovers : split.Covers t
  · rw [satisfies_of_splitTime h hcell hcovers, hb, Except.ok.injEq]
    exact (and_iff_right hcovers).symm
  · obtain ⟨s, hs, hout⟩ : ∃ s ∈ split.span, s.contains t = false := by
      simpa [TimeSplit.Covers] using hcovers
    have hfalse := evaluate_of_splitTime h hcell ⟨s, hs, hout⟩
    rw [hb, ne_eq, Except.ok.injEq] at hfalse
    exact iff_of_false hfalse fun hboth => hcovers hboth.1

end Split

/-- A predicate that can be split says on rows with a time what its span and its residual say. -/
theorem splitTime_standsFor {column : String} {p : Predicate} {split : TimeSplit}
    (h : p.splitTime column = .ok split) : split.StandsFor column p where
  eq_true_iff columns row t hcell b hb := eq_true_iff_of_splitTime h hcell hb
  decides columns row t hcell b hb hcovers :=
    ⟨b, by rw [satisfies_of_splitTime h hcell hcovers, hb]⟩
  sound columns row t hcell hcovers hresidual := by
    rwa [← satisfies_of_splitTime h hcell hcovers]
  avoids := mentions_eq_false_of_terms (terms_of_splitTime h)
  terms_eq := terms_of_splitTime h

def watch : Predicate :=
  .and (.and (.compare ⟨"time", .greater, .integer 5⟩)
      (.or (.compare ⟨"host", .equal, .text "web"⟩) (.compare ⟨"load", .less, .integer 3⟩)))
    (.and (.compare ⟨"time", .lessOrEqual, .text "1970-01-01T00:00:00.020Z"⟩)
      (.compare ⟨"load", .notEqual, .integer 2⟩))

def watchSplit : TimeSplit where
  span := some ⟨6, 21⟩
  residual := some (.and
    (.or (.compare ⟨"host", .equal, .text "web"⟩) (.compare ⟨"load", .less, .integer 3⟩))
    (.compare ⟨"load", .notEqual, .integer 2⟩))

theorem watch_standsFor :
    watch.splitTime "time" = .ok watchSplit ∧ watchSplit.StandsFor "time" watch :=
  have h : watch.splitTime "time" = .ok watchSplit := by decide +kernel
  ⟨h, splitTime_standsFor h⟩

end Predicate

end Timeslice
