import Timeslice.Proofs.Predicate.Splitting
import Timeslice.Proofs.Time.Moments

/-!
# Comparing times with dates

A date text stands for the millisecond that its instant lies in. Comparisons with it, and the spans
that they bound, are those with the start of this millisecond. For `>` and `<=` this is the
comparison with the instant itself. For the others it is so too, except that an instant inside its
millisecond counts as the timestamp of that millisecond.
-/

namespace Timeslice

namespace Moment

def order (m : Moment) (t : Int64) : Ordering :=
  compare (t.toInt * 1000000) m.nanosSinceEpoch

/-- How a timestamp stands to the millisecond of the instant. -/
def milliOrder (m : Moment) (t : Int64) : Ordering :=
  compare t.toInt m.millis

def IsWhole (m : Moment) : Prop :=
  m.nanosSinceEpoch % 1000000 = 0

variable {m : Moment} {t : Int64}

theorem order_eq_milliOrder (h : m.IsWhole ∨ t.toInt ≠ m.millis) : m.order t = m.milliOrder t := by
  unfold IsWhole at h
  rw [millis_eq] at h
  unfold order milliOrder
  rw [millis_eq]
  rcases Int.lt_trichotomy t.toInt (m.nanosSinceEpoch / 1000000) with hlt | heq | hgt
  · rw [Int.compare_eq_lt.mpr hlt, Int.compare_eq_lt]
    omega
  · rw [Int.compare_eq_eq.mpr heq, Int.compare_eq_eq]
    omega
  · rw [Int.compare_eq_gt.mpr hgt, Int.compare_eq_gt]
    omega

theorem order_of_not_isWhole (hinside : ¬m.IsWhole) (ht : t.toInt = m.millis) :
    m.order t = .lt := by
  unfold IsWhole at hinside
  rw [millis_eq] at ht
  rw [order, Int.compare_eq_lt]
  omega

end Moment

namespace Comparator

/-- The comparators that do not tell an instant from the start of its millisecond. -/
def roundsDown : Comparator → Bool
  | greater | lessOrEqual => true
  | _ => false

theorem holds_milliOrder_iff (c : Comparator) (m : Moment) (t : Int64) :
    c.holds (m.milliOrder t) = c.holds (m.order t) ↔
      c.roundsDown = true ∨ m.IsWhole ∨ t.toInt ≠ m.millis := by
  by_cases hexact : m.IsWhole ∨ t.toInt ≠ m.millis
  · rw [Moment.order_eq_milliOrder hexact]
    exact iff_of_true rfl (.inr hexact)
  · obtain ⟨hinside, ht⟩ := not_or.mp hexact
    rw [ne_eq, not_not] at ht
    have hmilli : m.milliOrder t = .eq := Int.compare_eq_eq.mpr ht
    rw [hmilli, Moment.order_of_not_isWhole hinside ht, or_iff_left hexact]
    cases c <;> decide

end Comparator

namespace Bounds

variable {column : String} {b b' : Bounds} {t : Int64}

theorem admits_addAll {terms : List Predicate} (h : b.addAll column terms = .ok b') :
    b'.Admits t ↔ b.Admits t ∧ ∀ c, .compare c ∈ terms → c.column = column →
      c.evaluate (.timestamp t) = .ok true := by
  replace h := adds_of_addAll h
  induction h with
  | nil => simp
  | @restricts _ _ _ c instant _ hcolumn hmillis hrestrict _ ih =>
    refine ih.trans ?_
    rw [admits_restrict hrestrict, and_assoc]
    refine and_congr_right fun _ => ?_
    have hhead : c.evaluate (.timestamp t) = .ok true ↔
        c.comparator.holds (Cell.wordOrder t instant) = true := by
      rw [evaluate_timestamp hmillis, Except.ok.injEq]
    simp [or_imp, forall_and, hcolumn, hhead]
  | @joins b _ term _ havoids _ ih =>
    have hadmits : Admits { b with residual := some (.conjoin b.residual term) } t ↔ b.Admits t :=
      ⟨fun h => ⟨h.lower, h.upper⟩, fun h => ⟨h.lower, h.upper⟩⟩
    refine ih.trans ?_
    rw [hadmits]
    refine and_congr_right fun _ => forall_congr' fun c => ?_
    have hhead : .compare c = term → c.column ≠ column := by
      rintro rfl rfl
      simp [Predicate.mentions, Predicate.columns] at havoids
    rw [List.mem_cons, or_imp]
    exact (and_iff_right fun heq hcolumn => absurd hcolumn (hhead heq)).symm

end Bounds

/-- A span covers the timestamps at which all comparisons of the column are true. -/
theorem Predicate.covers_iff_of_splitTime {column : String} {p : Predicate} {split : TimeSplit}
    (h : p.splitTime column = .ok split) (t : Int64) :
    split.Covers t ↔ ∀ c, .compare c ∈ p.conjuncts → c.column = column →
      c.evaluate (.timestamp t) = .ok true := by
  obtain ⟨b, hb, hclose⟩ := exists_bounds_of_splitTime h
  have hunbounded : Bounds.unbounded.Admits t := ⟨nofun, nofun⟩
  refine ((Bounds.close_spec hclose).2.2 t).symm.trans ?_
  rw [Bounds.admits_addAll hb]
  exact and_iff_right hunbounded

namespace DateText

/-- What a text that denotes the instant does in comparisons. -/
structure ComparesAt (s : String) (m : Moment) : Prop where
  evaluate : ∀ columns row column t, Predicate.cellAt? columns row column = some (.timestamp t) →
    ∀ comparator, (Predicate.compare ⟨column, comparator, .text s⟩).evaluate columns row =
      .ok (comparator.holds (m.milliOrder t))
  bound : ∀ column comparator, comparator ≠ .notEqual → ∀ b : Bounds, ∃ b',
    b.add column (.compare ⟨column, comparator, .text s⟩) = .ok b' ∧
      ∀ t, b'.Admits t ↔ b.Admits t ∧ comparator.holds (m.milliOrder t) = true
  span : ∀ column comparator before after, ∀ (p : Predicate) (split : TimeSplit),
    p.conjuncts = before ++ .compare ⟨column, comparator, .text s⟩ :: after →
      p.splitTime column = .ok split → ∀ t, split.Covers t ↔
        comparator.holds (m.milliOrder t) = true ∧
          ∀ c, .compare c ∈ before ++ after → c.column = column →
            c.evaluate (.timestamp t) = .ok true
  /-- Both are right for the instant itself, unless it lies inside the millisecond of the timestamp
  and the comparator tells the two apart. -/
  exact_iff : ∀ (comparator : Comparator) (t : Int64),
    comparator.holds (m.milliOrder t) = comparator.holds (m.order t) ↔
      comparator.roundsDown = true ∨ m.IsWhole ∨ t.toInt ≠ m.millis

variable {s : String} {m : Moment}

theorem millis_of_read (h : read s = some m) :
    ∃ v, millis? s = some v ∧ v.toInt = m.millis := by
  refine ⟨Int64.ofInt m.millis, ?_, (isNear_of_read h).toInt_millis⟩
  rw [millis?, h]
  rfl

theorem exists_restrict {v : Int64} (h : read s = some m) (hv : v.toInt = m.millis)
    {comparator : Comparator} (hbound : comparator ≠ .notEqual) (b : Bounds) :
    ∃ b', b.restrict comparator v = .ok b' := by
  have hafter : ∃ next, Bounds.after v = .ok next := by
    have hle := (isNear_of_read h).millis_le
    rw [← hv] at hle
    have hlow := v.minValue_le_toInt
    have hfits : v.toInt + 1 ≤ Int64.maxValue.toInt := by
      rw [show Int64.maxValue.toInt = 9223372036854775807 by decide]
      omega
    rw [Bounds.after, Word.next?, Word.signed64?, if_pos ⟨by omega, hfits⟩]
    exact ⟨_, rfl⟩
  obtain ⟨next, hnext⟩ := hafter
  cases comparator with
  | greater | lessOrEqual | equal =>
    rw [Bounds.restrict, hnext]
    exact ⟨_, rfl⟩
  | greaterOrEqual | less => exact ⟨_, rfl⟩
  | notEqual => exact absurd rfl hbound

/-- Comparisons with a date text are with the millisecond of its instant. -/
theorem compares_at_millisecond (h : read s = some m) : ComparesAt s m := by
  obtain ⟨v, hv, hmillis⟩ := millis_of_read h
  have hliteral : Literal.millis? (.text s) = some v := hv
  have horder (t : Int64) : Cell.wordOrder t v = m.milliOrder t := by
    rw [Cell.wordOrder, hmillis, Moment.milliOrder]
  have heval (comparator : Comparator) (column : String) (t : Int64) :
      (⟨column, comparator, .text s⟩ : Comparison).evaluate (.timestamp t) =
        .ok (comparator.holds (m.milliOrder t)) := by
    rw [Bounds.evaluate_timestamp hliteral, horder]
  refine ⟨?_, ?_, ?_, fun comparator t => comparator.holds_milliOrder_iff m t⟩
  · intro columns row column t hcell comparator
    rw [Bounds.evaluate_of_bound hcell rfl hliteral, horder]
  · intro column comparator hbound b
    obtain ⟨b', hb'⟩ := exists_restrict h hmillis hbound b
    refine ⟨b', ?_, fun t => ?_⟩
    · rw [Bounds.add, if_pos rfl, hliteral]
      exact hb'
    · rw [Bounds.admits_restrict hb', horder]
  · intro column comparator before after p split hterms hsplit t
    rw [Predicate.covers_iff_of_splitTime hsplit, hterms]
    constructor
    · intro hall
      have hown := hall ⟨column, comparator, .text s⟩ (by simp) rfl
      rw [heval, Except.ok.injEq] at hown
      refine ⟨hown, fun c hc hcolumn => hall c ?_ hcolumn⟩
      rcases List.mem_append.mp hc with hc | hc
      · exact List.mem_append_left _ hc
      · exact List.mem_append_right _ (List.mem_cons_of_mem _ hc)
    · rintro ⟨hown, hothers⟩ c hc hcolumn
      rcases List.mem_append.mp hc with hc | hc
      · exact hothers c (List.mem_append_left _ hc) hcolumn
      rcases List.mem_cons.mp hc with hc | hc
      · cases hc
        rw [heval, hown]
      · exact hothers c (List.mem_append_right _ hc) hcolumn

/-- An instant half a millisecond before the epoch, given in a zone to the east. -/
theorem before_epoch_compares :
    read "1970-01-01T00:59:59.9995+01:00" = some ⟨-1, 999500000⟩ ∧
      ComparesAt "1970-01-01T00:59:59.9995+01:00" ⟨-1, 999500000⟩ :=
  have h : read "1970-01-01T00:59:59.9995+01:00" = some ⟨-1, 999500000⟩ := by decide +kernel
  ⟨h, compares_at_millisecond h⟩

/-- The epoch is before an instant half a millisecond later, but the comparison says that it is not,
and the span stops in front of it. -/
theorem epoch_left_out :
    read "1970-01-01T00:00:00.0005Z" = some ⟨0, 500000⟩ ∧
      Comparator.less.holds (Moment.order ⟨0, 500000⟩ 0) = true ∧
      (⟨"time", .less, .text "1970-01-01T00:00:00.0005Z"⟩ : Comparison).evaluate (.timestamp 0) =
        .ok false ∧
      (Predicate.and (.compare ⟨"time", .greaterOrEqual, .integer (-5)⟩)
        (.compare ⟨"time", .less, .text "1970-01-01T00:00:00.0005Z"⟩)).splitTime "time" =
          .ok ⟨some ⟨-5, 0⟩, none⟩ := by
  decide +kernel

end DateText

end Timeslice
