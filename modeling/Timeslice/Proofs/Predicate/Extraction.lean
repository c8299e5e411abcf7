import Mathlib.Order.Bounds.Basic
import Timeslice.Proofs.Predicate.Splitting

/-!
# Which predicates bound their time

A predicate is split exactly if its comparisons of the time column stand under AND only, each of
them is a bound, and together they bound both sides or there are none. The span then starts at the
greatest of the lower bounds and stops at the least of the upper ones. A predicate that is not split
is refused for its first term that is no bound, and only without such a term for want of a side.
-/

namespace Timeslice

inductive Literal.Denotes : Literal → Int64 → Prop where
  | integer (t : Int64) : Denotes (.integer t) t
  | date {s : String} {t : Int64} : DateText.millis? s = some t → Denotes (.text s) t

theorem Literal.denotes_iff {l : Literal} {t : Int64} : l.Denotes t ↔ l.millis? = some t := by
  constructor
  · rintro (_ | hdate)
    · rfl
    · exact hdate
  · intro h
    cases l with
    | integer v =>
      cases h
      exact .integer _
    | text s => exact .date h
    | decimal v | truth b => cases h

namespace Comparator

/-- The edge that a comparison with the instant sets on a side of the span, if it sets one: the
first instant at which it holds, or the first one from which on it does not. -/
def edge? : Side → Comparator → Int → Option Int
  | .lower, greater, t => some (t + 1)
  | .lower, greaterOrEqual, t | .lower, equal, t => some t
  | .upper, less, t => some t
  | .upper, lessOrEqual, t | .upper, equal, t => some (t + 1)
  | _, _, _ => none

/-- One edge of the comparator is at the instant after that of its literal. -/
def steps : Comparator → Bool
  | greater | lessOrEqual | equal => true
  | _ => false

end Comparator

namespace Comparison

structure IsBound (c : Comparison) : Prop where
  comparator : c.comparator ≠ .notEqual
  literal : ∃ t, c.literal.Denotes t
  fits : c.comparator.steps = true → ¬c.literal.Denotes Int64.maxValue

def HasEdge (c : Comparison) (side : Side) (n : Int) : Prop :=
  ∃ t, c.literal.Denotes t ∧ n ∈ c.comparator.edge? side t.toInt

end Comparison

/-- The term keeps a predicate from being split, for the reason given. -/
inductive Offends (column : String) : Predicate → BoundFlaw → Prop where
  | disjunction {p : Predicate} : (∀ c, p ≠ .compare c) → p.mentions column = true →
      Offends column p .timeColumnInDisjunction
  | literal {c : Comparison} : c.column = column → (∀ t, ¬c.literal.Denotes t) →
      Offends column (.compare c) (.invalidTimeLiteral c.literal)
  | comparator {c : Comparison} {t : Int64} : c.column = column → c.literal.Denotes t →
      c.comparator = .notEqual →
      Offends column (.compare c) (.unsupportedTimeOperator .notEqual)
  | overflow {c : Comparison} : c.column = column → c.literal.Denotes Int64.maxValue →
      c.comparator.steps = true → Offends column (.compare c) .timeBoundOverflow

/-- None of the terms offends. -/
def NoneOffend (column : String) (terms : List Predicate) : Prop :=
  ∀ q ∈ terms, ∀ flaw, ¬Offends column q flaw

def FirstOffends (column : String) (terms : List Predicate) (flaw : BoundFlaw) : Prop :=
  ∃ before q after, terms = before ++ q :: after ∧ NoneOffend column before ∧ Offends column q flaw

namespace Bounds

variable {column : String} {b b' : Bounds} {t : Int64} {flaw : BoundFlaw}

theorem after_maxValue : after Int64.maxValue = .error .timeBoundOverflow := by
  decide +kernel

theorem after_eq_error_iff :
    after t = .error flaw ↔ flaw = .timeBoundOverflow ∧ t = Int64.maxValue := by
  constructor
  · intro h
    unfold after at h
    split at h
    · cases h
    · next hnext =>
      cases h
      refine ⟨rfl, Int64.toInt_inj.mp ?_⟩
      have hlow := t.minValue_le_toInt
      have hhigh := t.toInt_le
      rw [Word.next?, Word.signed64?] at hnext
      split_ifs at hnext with hfits
      omega
  · rintro ⟨rfl, rfl⟩
    exact after_maxValue

theorem map_after_eq_error_iff {f : Int64 → Bounds} :
    (after t).map f = .error flaw ↔ flaw = .timeBoundOverflow ∧ t = Int64.maxValue := by
  rw [← after_eq_error_iff]
  cases after t <;> simp [Except.map]

theorem restrict_eq_error_iff {comparator : Comparator} :
    b.restrict comparator t = .error flaw ↔
      (comparator = .notEqual ∧ flaw = .unsupportedTimeOperator .notEqual) ∨
        (comparator.steps = true ∧ t = Int64.maxValue ∧ flaw = .timeBoundOverflow) := by
  cases comparator with
  | greater | lessOrEqual | equal =>
    simp [restrict, map_after_eq_error_iff, Comparator.steps, and_comm]
  | greaterOrEqual | less => simp [restrict, Comparator.steps]
  | notEqual => simp [restrict, Comparator.steps, eq_comm]

theorem add_eq_error_iff {term : Predicate} :
    b.add column term = .error flaw ↔ Offends column term flaw := by
  constructor
  · intro h
    cases term with
    | compare c =>
      rw [add] at h
      split_ifs at h with hcolumn
      split at h
      · next instant hinstant =>
        have hdenotes := Literal.denotes_iff.mpr hinstant
        rcases restrict_eq_error_iff.mp h with ⟨hcomparator, rfl⟩ | ⟨hsteps, rfl, rfl⟩
        · exact .comparator hcolumn hdenotes hcomparator
        · exact .overflow hcolumn hdenotes hsteps
      · next hnone =>
        cases h
        refine .literal hcolumn fun t ht => ?_
        rw [Literal.denotes_iff, hnone] at ht
        cases ht
    | and left right | or left right =>
      simp only [add] at h
      split_ifs at h with hmentions
      cases h
      exact .disjunction (by rintro c ⟨⟩) hmentions
  · rintro (⟨hcompare, hmentions⟩ | ⟨hcolumn, hnone⟩ | ⟨hcolumn, hdenotes, hcomparator⟩ |
      ⟨hcolumn, hdenotes, hsteps⟩)
    · cases term with
      | compare c => exact absurd rfl (hcompare c)
      | and left right | or left right => simp only [add, hmentions, if_true]
    · have hmillis : ∀ l : Literal, (∀ t, ¬l.Denotes t) → l.millis? = none := by
        intro l hl
        rw [Option.eq_none_iff_forall_ne_some]
        exact fun t ht => hl t (Literal.denotes_iff.mpr ht)
      simp only [add, hcolumn, if_true, hmillis _ hnone]
    · simp only [add, hcolumn, if_true, Literal.denotes_iff.mp hdenotes, hcomparator, restrict]
    · simp only [add, hcolumn, if_true, Literal.denotes_iff.mp hdenotes]
      exact restrict_eq_error_iff.mpr (.inr ⟨hsteps, rfl, rfl⟩)

/-- Terms are refused for the first one that offends. -/
theorem addAll_eq_error_iff {terms : List Predicate} :
    b.addAll column terms = .error flaw ↔ FirstOffends column terms flaw := by
  induction terms generalizing b with
  | nil =>
    refine iff_of_false (by rintro ⟨⟩) ?_
    rintro ⟨before, q, after, h, -⟩
    simp at h
  | cons term rest ih =>
    rw [addAll]
    constructor
    · intro h
      split at h
      · next b1 hb1 =>
        obtain ⟨before, q, after, rfl, hbefore, hq⟩ := ih.mp h
        have hterm : ∀ f, ¬Offends column term f := by
          intro f hf
          cases hb1.symm.trans (add_eq_error_iff.mpr hf)
        exact ⟨term :: before, q, after, rfl, List.forall_mem_cons.mpr ⟨hterm, hbefore⟩, hq⟩
      · next hflaw =>
        cases h
        exact ⟨[], term, rest, rfl, List.forall_mem_nil _, add_eq_error_iff.mp hflaw⟩
    · rintro ⟨before, q, after, h, hbefore, hq⟩
      cases before with
      | nil =>
        cases h
        rw [add_eq_error_iff.mpr hq]
      | cons r before =>
        cases h
        obtain ⟨hterm, hrest⟩ := List.forall_mem_cons.mp hbefore
        cases hadd : b.add column term with
        | error f => exact absurd (add_eq_error_iff.mp hadd) (hterm f)
        | ok b1 => exact ih.mpr ⟨before, q, after, rfl, hrest, hq⟩

theorem exists_addAll_iff {terms : List Predicate} :
    (∃ b', b.addAll column terms = .ok b') ↔ NoneOffend column terms := by
  induction terms generalizing b with
  | nil => exact iff_of_true ⟨b, rfl⟩ (List.forall_mem_nil _)
  | cons term rest ih =>
    rw [NoneOffend, List.forall_mem_cons, addAll]
    cases hadd : b.add column term with
    | error f =>
      refine iff_of_false ?_ fun h => h.1 f (add_eq_error_iff.mp hadd)
      rintro ⟨b', ⟨⟩⟩
    | ok b1 =>
      have hterm : ∀ f, ¬Offends column term f := by
        intro f hf
        cases hadd.symm.trans (add_eq_error_iff.mpr hf)
      exact ih.trans (and_iff_right hterm).symm

end Bounds

def edges (column : String) (terms : List Predicate) (side : Side) : Set Int :=
  {n | ∃ c, .compare c ∈ terms ∧ c.column = column ∧ c.HasEdge side n}

section Edges

variable {column : String} {side : Side} {c : Comparison} {t : Int64}

theorem edges_nil : edges column [] side = ∅ := by
  simp [edges]

theorem edges_cons {term : Predicate} {rest : List Predicate} :
    edges column (term :: rest) side = edges column [term] side ∪ edges column rest side := by
  ext n
  simp [edges, or_and_right, exists_or]

theorem edges_singleton (hcolumn : c.column = column) (ht : c.literal.millis? = some t) :
    edges column [.compare c] side = {n | n ∈ c.comparator.edge? side t.toInt} := by
  ext n
  simp [edges, Comparison.HasEdge, Literal.denotes_iff, hcolumn, ht]

theorem edges_of_avoids {terms : List Predicate} (h : ∀ q ∈ terms, q.mentions column = false) :
    edges column terms side = ∅ := by
  rw [Set.eq_empty_iff_forall_notMem]
  rintro n ⟨c, hc, rfl, -⟩
  simpa [Predicate.mentions, Predicate.columns] using h _ hc

end Edges

/-- The bound is the best of the instants, and missing if there are none. -/
def IsBest (best : Set Int → Int → Prop) (bound : Option Int64) (instants : Set Int) : Prop :=
  bound.elim (instants = ∅) fun v => best instants v.toInt

section Best

variable {best : Set Int → Int → Prop} {bound : Option Int64} {instants : Set Int} {t : Int64}

theorem IsBest.insert {pick : Int64 → Int64 → Int64} (h : IsBest best bound instants)
    (hone : best {t.toInt} t.toInt)
    (hpick : ∀ v : Int64, best instants v.toInt →
      best (insert t.toInt instants) (pick v t).toInt) :
    IsBest best (some (bound.elim t fun v => pick v t)) (insert t.toInt instants) := by
  cases bound with
  | none =>
    rw [show instants = ∅ from h, insert_empty_eq]
    exact hone
  | some v => exact hpick v h

theorem IsBest.eq_none_iff (h : IsBest best bound instants)
    (hbest : ∀ n, best instants n → instants.Nonempty) : bound = none ↔ instants = ∅ := by
  cases bound with
  | none => exact iff_of_true rfl h
  | some v => exact iff_of_false (Option.some_ne_none v) (hbest _ h).ne_empty

end Best

namespace Bounds

/-- The bounds are the tightest of the edges. -/
structure Collects (b : Bounds) (edges : Side → Set Int) : Prop where
  lower : IsBest IsGreatest b.lower (edges .lower)
  upper : IsBest IsLeast b.upper (edges .upper)

section Collects

variable {column : String} {b b' : Bounds} {t : Int64} {E : Side → Set Int}

theorem collects_unbounded : unbounded.Collects fun _ => ∅ :=
  ⟨rfl, rfl⟩

theorem Collects.raise {E' : Side → Set Int} (h : b.Collects E)
    (hlower : E' .lower = insert t.toInt (E .lower)) (hupper : E' .upper = E .upper) :
    (b.raise t).Collects E' := by
  refine ⟨?_, by rw [hupper]; exact h.upper⟩
  rw [hlower]
  refine h.lower.insert isGreatest_singleton fun l hl => ?_
  rw [toInt_max, max_comm]
  exact hl.insert t.toInt

theorem Collects.cap {E' : Side → Set Int} (h : b.Collects E)
    (hlower : E' .lower = E .lower) (hupper : E' .upper = insert t.toInt (E .upper)) :
    (b.cap t).Collects E' := by
  refine ⟨by rw [hlower]; exact h.lower, ?_⟩
  rw [hupper]
  refine h.upper.insert isLeast_singleton fun u hu => ?_
  rw [toInt_min, min_comm]
  exact hu.insert t.toInt

theorem Collects.restrict {comparator : Comparator} (h : b.Collects E)
    (hb : b.restrict comparator t = .ok b') :
    b'.Collects fun side => E side ∪ {n | n ∈ comparator.edge? side t.toInt} := by
  have hsome : ∀ (S : Set Int) n, S ∪ {m | m ∈ some n} = insert n S := by
    intro S n
    ext m
    simp [eq_comm]
  have hnone : ∀ S : Set Int, S ∪ {m | m ∈ (none : Option Int)} = S := by
    intro S
    ext m
    simp
  cases comparator with
  | greater =>
    obtain ⟨next, hnext, rfl⟩ := Except.exists_of_map hb
    refine h.raise ?_ (hnone _)
    rw [toInt_after hnext]
    exact hsome _ _
  | greaterOrEqual =>
    cases hb
    exact h.raise (hsome _ _) (hnone _)
  | less =>
    cases hb
    exact h.cap (hnone _) (hsome _ _)
  | lessOrEqual =>
    obtain ⟨next, hnext, rfl⟩ := Except.exists_of_map hb
    refine h.cap (hnone _) ?_
    rw [toInt_after hnext]
    exact hsome _ _
  | equal =>
    obtain ⟨next, hnext, rfl⟩ := Except.exists_of_map hb
    have hraise : (b.raise t).Collects fun side =>
        E side ∪ {n | n ∈ Comparator.greaterOrEqual.edge? side t.toInt} :=
      h.raise (hsome _ _) (hnone _)
    refine hraise.cap rfl ?_
    rw [toInt_after hnext]
    exact (hsome _ _).trans (congrArg (insert _) (hnone _).symm)
  | notEqual => cases hb

theorem Collects.addAll {terms : List Predicate} (h : b.Collects E)
    (hb : b.addAll column terms = .ok b') :
    b'.Collects fun side => E side ∪ edges column terms side := by
  replace hb := adds_of_addAll hb
  induction hb generalizing E with
  | nil =>
    simp only [edges_nil, Set.union_empty]
    exact h
  | restricts hcolumn hmillis hrestrict _ ih =>
    have hrest := ih (h.restrict hrestrict)
    simp only [← edges_singleton hcolumn hmillis, Set.union_assoc, ← edges_cons] at hrest
    exact hrest
  | @joins _ _ term rest havoids _ ih =>
    have hedges (side : Side) : edges column (term :: rest) side = edges column rest side := by
      rw [edges_cons, edges_of_avoids (List.forall_mem_singleton.mpr havoids), Set.empty_union]
    simp only [hedges]
    exact ih ⟨h.lower, h.upper⟩

/-- The bounds of terms are the tightest of their edges. -/
theorem collects_addAll {terms : List Predicate} (hb : unbounded.addAll column terms = .ok b) :
    b.Collects (edges column terms) := by
  have h := collects_unbounded.addAll hb
  simp only [Set.empty_union] at h
  exact h

theorem Collects.lower_eq_none_iff (h : b.Collects E) : b.lower = none ↔ E .lower = ∅ :=
  h.lower.eq_none_iff fun _ => IsGreatest.nonempty

theorem Collects.upper_eq_none_iff (h : b.Collects E) : b.upper = none ↔ E .upper = ∅ :=
  h.upper.eq_none_iff fun _ => IsLeast.nonempty

theorem close_eq_error_iff {flaw : BoundFlaw} :
    b.close = .error flaw ↔
      (flaw = .missingTimeBound .lower ∧ b.lower = none ∧ b.upper ≠ none) ∨
        (flaw = .missingTimeBound .upper ∧ b.upper = none ∧ b.lower ≠ none) := by
  unfold close
  cases b.lower <;> cases b.upper <;> simp [eq_comm]

end Collects

end Bounds

def Side.opposite : Side → Side
  | lower => upper
  | upper => lower

/-- The terms set edges, but none on the side. -/
structure LacksSide (column : String) (terms : List Predicate) (side : Side) : Prop where
  isEmpty : edges column terms side = ∅
  nonempty : (edges column terms side.opposite).Nonempty

theorem Bounds.Collects.close_eq_error_iff {column : String} {terms : List Predicate} {b : Bounds}
    (h : b.Collects (edges column terms)) {flaw : BoundFlaw} :
    b.close = .error flaw ↔
      ∃ side, flaw = .missingTimeBound side ∧ LacksSide column terms side := by
  rw [Bounds.close_eq_error_iff, ne_eq, ne_eq, h.lower_eq_none_iff, h.upper_eq_none_iff,
    ← ne_eq, ← ne_eq, ← Set.nonempty_iff_ne_empty, ← Set.nonempty_iff_ne_empty]
  constructor
  · rintro (⟨rfl, hlower, hupper⟩ | ⟨rfl, hupper, hlower⟩)
    · exact ⟨.lower, rfl, hlower, hupper⟩
    · exact ⟨.upper, rfl, hupper, hlower⟩
  · rintro ⟨side, rfl, hside, hopposite⟩
    cases side with
    | lower => exact .inl ⟨rfl, hside, hopposite⟩
    | upper => exact .inr ⟨rfl, hside, hopposite⟩

namespace Predicate

def AllBuried (P : Comparison → Prop) : Predicate → Prop
  | compare _ => True
  | and left right => left.AllBuried P ∧ right.AllBuried P
  | or left right => left.All P ∧ right.All P

/-- The predicate bounds the times in the column, on both sides or on none. -/
structure IsBoundable (column : String) (p : Predicate) : Prop where
  atTop : p.AllBuried fun c => c.column ≠ column
  areBounds : p.All fun c => c.column = column → c.IsBound
  onBothSides : p.mentions column = true → ∀ side, (edges column p.conjuncts side).Nonempty

variable {column : String} {p : Predicate}

theorem all_ne_iff : (p.All fun c => c.column ≠ column) ↔ p.mentions column = false := by
  induction p with
  | compare c => simp [All, mentions, columns, eq_comm]
  | and left right ihl ihr | or left right ihl ihr =>
    rw [All, ihl, ihr]
    simp [mentions, columns]

theorem All.mono {P Q : Comparison → Prop} (hPQ : ∀ c, P c → Q c) (h : p.All P) : p.All Q := by
  induction p with
  | compare c => exact hPQ c h
  | and left right ihl ihr | or left right ihl ihr => exact ⟨ihl h.1, ihr h.2⟩

theorem not_offends_compare_iff {c : Comparison} :
    (∀ flaw, ¬Offends column (.compare c) flaw) ↔ (c.column = column → c.IsBound) := by
  constructor
  · intro h hcolumn
    have hliteral : ∃ t, c.literal.Denotes t := by
      by_contra hnone
      exact h _ (.literal hcolumn (not_exists.mp hnone))
    obtain ⟨t, ht⟩ := hliteral
    exact {
      comparator := fun hcomparator => h _ (.comparator hcolumn ht hcomparator)
      literal := ⟨t, ht⟩
      fits := fun hsteps hmax => h _ (.overflow hcolumn hmax hsteps) }
  · rintro h flaw (⟨hcompare, -⟩ | ⟨hcolumn, hnone⟩ | ⟨hcolumn, -, hcomparator⟩ |
      ⟨hcolumn, hmax, hsteps⟩)
    · exact hcompare c rfl
    · obtain ⟨t, ht⟩ := (h hcolumn).literal
      exact hnone t ht
    · exact (h hcolumn).comparator hcomparator
    · exact (h hcolumn).fits hsteps hmax

theorem not_offends_or_iff {left right : Predicate} :
    (∀ flaw, ¬Offends column (.or left right) flaw) ↔ (left.or right).mentions column = false := by
  constructor
  · intro h
    rw [← Bool.not_eq_true]
    exact fun hmentions => h _ (.disjunction (by rintro c ⟨⟩) hmentions)
  · rintro h flaw ⟨-, hmentions⟩
    rw [h] at hmentions
    cases hmentions

theorem noneOffend_conjuncts_iff :
    NoneOffend column p.conjuncts ↔
      (p.AllBuried fun c => c.column ≠ column) ∧ p.All fun c => c.column = column → c.IsBound := by
  induction p with
  | compare c => exact List.forall_mem_singleton.trans (not_offends_compare_iff.trans
      (and_iff_right trivial).symm)
  | or left right =>
    refine (List.forall_mem_singleton.trans not_offends_or_iff).trans ?_
    rw [← all_ne_iff]
    exact (and_iff_left_of_imp (All.mono fun c hne heq => absurd heq hne)).symm
  | and left right ihl ihr =>
    rw [NoneOffend, conjuncts, List.forall_mem_append]
    refine (and_congr ihl ihr).trans ?_
    exact and_and_and_comm

end Predicate

/-- How a predicate is split at a column. -/
structure Extraction (column : String) (p : Predicate) : Prop where
  accepts_iff : (∃ split, p.splitTime column = .ok split) ↔ p.IsBoundable column
  span_eq_none_iff : ∀ split, p.splitTime column = .ok split →
    (split.span = none ↔ p.mentions column = false)
  span_isTightest : ∀ split, p.splitTime column = .ok split → ∀ s ∈ split.span,
    IsGreatest (edges column p.conjuncts .lower) s.start.toInt ∧
      IsLeast (edges column p.conjuncts .upper) s.stop.toInt
  refuses_iff : ∀ fault, p.splitTime column = .error fault ↔ fault.column = column ∧
    (FirstOffends column p.conjuncts fault.flaw ∨
      NoneOffend column p.conjuncts ∧
        ∃ side, fault.flaw = .missingTimeBound side ∧ LacksSide column p.conjuncts side)

namespace Predicate

section Split

variable {column : String} {p : Predicate} {split : TimeSplit}

theorem noneOffend_of_splitTime (h : p.splitTime column = .ok split) :
    NoneOffend column p.conjuncts := by
  obtain ⟨b, hb, -⟩ := exists_bounds_of_splitTime h
  exact Bounds.exists_addAll_iff.mp ⟨b, hb⟩

theorem span_isTightest_of_splitTime (h : p.splitTime column = .ok split) {s : Span}
    (hs : s ∈ split.span) :
    IsGreatest (edges column p.conjuncts .lower) s.start.toInt ∧
      IsLeast (edges column p.conjuncts .upper) s.stop.toInt := by
  obtain ⟨b, hb, hclose⟩ := exists_bounds_of_splitTime h
  have hcollects := Bounds.collects_addAll hb
  obtain ⟨hlower, hupper⟩ := hcollects
  unfold Bounds.close at hclose
  cases hl : b.lower <;> cases hu : b.upper <;> rw [hl, hu] at hclose <;> cases hclose
  · cases hs
  · cases hs
    rw [hl] at hlower
    rw [hu] at hupper
    exact ⟨hlower, hupper⟩

theorem splitTime_eq_error_iff {fault : BoundFault} :
    p.splitTime column = .error fault ↔ fault.column = column ∧
      (FirstOffends column p.conjuncts fault.flaw ∨
        NoneOffend column p.conjuncts ∧
          ∃ side, fault.flaw = .missingTimeBound side ∧ LacksSide column p.conjuncts side) := by
  obtain ⟨name, flaw⟩ := fault
  rw [splitTime, ← Bounds.addAll_eq_error_iff (b := .unbounded),
    ← Bounds.exists_addAll_iff (b := .unbounded)]
  cases hb : Bounds.unbounded.addAll column p.conjuncts with
  | error f => simp [eq_comm]
  | ok b =>
    rw [← (Bounds.collects_addAll hb).close_eq_error_iff]
    cases hclose : b.close with
    | error f => simp [hclose, eq_comm]
    | ok split => simp [hclose]

theorem IsBoundable.not_lacksSide (h : p.IsBoundable column) (side : Side) :
    ¬LacksSide column p.conjuncts side := by
  rintro ⟨hempty, hnonempty⟩
  cases hmentions : p.mentions column with
  | true => exact (h.onBothSides hmentions side).ne_empty hempty
  | false =>
    rw [← mentions_conjuncts, List.any_eq_false] at hmentions
    exact hnonempty.ne_empty (edges_of_avoids fun q hq => Bool.eq_false_iff.mpr (hmentions q hq))

theorem exists_splitTime_iff :
    (∃ split, p.splitTime column = .ok split) ↔ p.IsBoundable column := by
  constructor
  · rintro ⟨split, h⟩
    obtain ⟨hatTop, hbounds⟩ := noneOffend_conjuncts_iff.mp (noneOffend_of_splitTime h)
    refine ⟨hatTop, hbounds, fun hmentions side => ?_⟩
    rw [← isSome_span_of_splitTime h, Option.isSome_iff_exists] at hmentions
    obtain ⟨s, hs⟩ := hmentions
    obtain ⟨hstart, hstop⟩ := span_isTightest_of_splitTime h hs
    cases side with
    | lower => exact hstart.nonempty
    | upper => exact hstop.nonempty
  · intro h
    have hnone : NoneOffend column p.conjuncts :=
      noneOffend_conjuncts_iff.mpr ⟨h.atTop, h.areBounds⟩
    cases hsplit : p.splitTime column with
    | ok split => exact ⟨split, rfl⟩
    | error fault =>
      rcases (splitTime_eq_error_iff.mp hsplit).2 with
        ⟨before, q, after, hterms, -, hq⟩ | ⟨-, side, -, hlacks⟩
      · exact absurd hq (hnone q (by simp [hterms]) fault.flaw)
      · exact absurd hlacks (h.not_lacksSide side)

end Split

/-- A predicate is split exactly if it is boundable, at the tightest of its edges, and refused for
its first term that offends. -/
theorem extraction (column : String) (p : Predicate) : Extraction column p where
  accepts_iff := exists_splitTime_iff
  span_eq_none_iff split h := by
    rw [← isSome_span_of_splitTime h, Option.isSome_eq_false_iff, Option.isNone_iff_eq_none]
  span_isTightest split h s hs := span_isTightest_of_splitTime h hs
  refuses_iff fault := splitTime_eq_error_iff

example :
    (Predicate.and (.compare ⟨"time", .greater, .integer 5⟩)
      (.compare ⟨"time", .less, .text "noon"⟩)).splitTime "time" =
        .error ⟨"time", .invalidTimeLiteral (.text "noon")⟩ := by
  decide +kernel

end Predicate

end Timeslice
