import Mathlib.Order.Bounds.Basic
import Timeslice.Proofs.Cluster.Traffic

/-!
# How many requests are in flight

The count of a cluster is the number of requests that have arrived and have been neither answered nor
abandoned, whatever happens in whichever order, so it is never taken below zero. The peak is the
greatest value to which an arrival has raised the count since the history was last cleared. A request
that is in flight when the history is cleared is not in the peak before the next arrival: the peak is
the greatest value of the count since then exactly if it is no less than the count was then.
-/

namespace Timeslice.Traffic

def Event.starts : Event → Bool
  | .arrive _ => true
  | _ => false

def ends (t : Traffic) : Event → Bool
  | .answer place | .abandon place => decide (place < t.held.length)
  | _ => false

def ended (t : Traffic) : List Event → Nat
  | [] => 0
  | event :: rest => (if t.ends event then 1 else 0) + (t.step event).ended rest

/-- The values that the count has from now on up to the end of the events. -/
def levels (t : Traffic) (events : List Event) : Set Nat :=
  {n | ∃ past, past <+: events ∧ (t.run past).cluster.inFlight = n}

/-- The values to which the arrivals among the events raise the count. -/
def crests (t : Traffic) (events : List Event) : Set Nat :=
  {n | ∃ past event, past ++ [event] <+: events ∧ event.starts = true ∧
    (t.run (past ++ [event])).cluster.inFlight = n}

/-- The later events are those since the history was last cleared, or since the beginning. -/
structure SinceCleared (events earlier later : List Event) : Prop where
  split : events = earlier ++ later
  cleared : earlier = [] ∨ earlier.getLast? = some .clearHistory
  uncleared : .clearHistory ∉ later

inductive Counts (t : Traffic) : Event → Traffic → Prop where
  | arrived {u : Traffic} (r : Request) (inFlight : u.cluster.inFlight = t.cluster.inFlight + 1)
      (peak : u.cluster.peak = max t.cluster.peak (t.cluster.inFlight + 1))
      (held : u.held.length = t.held.length + 1) : Counts t (.arrive r) u
  | left {event : Event} {u : Traffic} (starts : event.starts = false) (ends : t.ends event = true)
      (inFlight : u.cluster.inFlight = t.cluster.inFlight - 1)
      (peak : u.cluster.peak = t.cluster.peak)
      (held : u.held.length + 1 = t.held.length) : Counts t event u
  | cleared {u : Traffic} (inFlight : u.cluster.inFlight = t.cluster.inFlight)
      (peak : u.cluster.peak = 0) (held : u.held = t.held) : Counts t .clearHistory u
  | kept {event : Event} {u : Traffic} (starts : event.starts = false) (ends : t.ends event = false)
      (inFlight : u.cluster.inFlight = t.cluster.inFlight)
      (peak : u.cluster.peak = t.cluster.peak) (held : u.held = t.held) : Counts t event u

variable {t : Traffic} {event : Event} {events earlier later : List Event}

theorem counters_conclude (c : Cluster) (held : Cluster.Held) :
    (c.conclude held).1.inFlight = c.inFlight ∧ (c.conclude held).1.peak = c.peak := by
  unfold Cluster.conclude Cluster.apply
  split
  · exact ⟨rfl, rfl⟩
  · split <;> exact ⟨rfl, rfl⟩

theorem counts_step (t : Traffic) (event : Event) : t.Counts event (t.step event) := by
  have hlength {place : Nat} (hplace : place < t.held.length) :
      (t.held.eraseIdx place).length + 1 = t.held.length := by
    rw [List.length_eraseIdx_of_lt hplace]
    omega
  cases event with
  | arrive r => exact .arrived r rfl rfl (by simp [step])
  | answer place =>
    cases hheld : t.held[place]? with
    | none =>
      have hplace : ¬place < t.held.length := by simpa using hheld
      simp only [step, hheld]
      exact .kept rfl (by simpa [ends] using hplace) rfl rfl rfl
    | some held =>
      obtain ⟨hplace, -⟩ := List.getElem?_eq_some_iff.mp hheld
      obtain ⟨hinFlight, hpeak⟩ := counters_conclude t.cluster.leave held
      simp only [step, hheld]
      exact .left rfl (by simpa [ends] using hplace) hinFlight hpeak (hlength hplace)
  | abandon place =>
    cases hheld : t.held[place]? with
    | none =>
      have hplace : ¬place < t.held.length := by simpa using hheld
      simp only [step, hheld]
      exact .kept rfl (by simpa [ends] using hplace) rfl rfl rfl
    | some held =>
      obtain ⟨hplace, -⟩ := List.getElem?_eq_some_iff.mp hheld
      simp only [step, hheld]
      exact .left rfl (by simpa [ends] using hplace) rfl rfl (hlength hplace)
  | failWhen p rejection => exact .kept rfl rfl rfl rfl rfl
  | clearHistory => exact .cleared rfl rfl rfl

theorem run_concat (t : Traffic) (events : List Event) (event : Event) :
    t.run (events ++ [event]) = (t.run events).step event := by
  rw [run, run, List.foldl_append, List.foldl_cons, List.foldl_nil]

theorem run_append (t : Traffic) (earlier later : List Event) :
    t.run (earlier ++ later) = (t.run earlier).run later :=
  List.foldl_append

/-- The count is that of the requests that are held. -/
def IsExact (t : Traffic) : Prop :=
  t.cluster.inFlight = t.held.length

theorem IsExact.step (h : t.IsExact) (event : Event) : (t.step event).IsExact := by
  unfold IsExact at h ⊢
  cases counts_step t event with
  | arrived r inFlight peak held => omega
  | left starts ends inFlight peak held => omega
  | cleared inFlight peak held => rw [inFlight, held, h]
  | kept starts ends inFlight peak held => rw [inFlight, held, h]

theorem IsExact.run (h : t.IsExact) (events : List Event) : (t.run events).IsExact := by
  induction events generalizing t with
  | nil => exact h
  | cons event rest ih => exact ih (h.step event)

theorem IsExact.pos_of_ends (h : t.IsExact) (hends : t.ends event = true) :
    0 < t.cluster.inFlight := by
  unfold IsExact at h
  cases counts_step t event with
  | arrived r inFlight peak held => cases hends
  | left starts ends inFlight peak held => omega
  | cleared inFlight peak held => cases hends
  | kept starts ends inFlight peak held => cases hends.symm.trans ends

theorem IsExact.inFlight_add_ended (h : t.IsExact) (events : List Event) :
    (t.run events).cluster.inFlight + t.ended events =
      t.cluster.inFlight + events.countP Event.starts := by
  induction events generalizing t with
  | nil => rfl
  | cons event rest ih =>
    have hrest := ih (h.step event)
    have hpos : t.ends event = true → 0 < t.cluster.inFlight := h.pos_of_ends
    have hrun : t.run (event :: rest) = (t.step event).run rest := rfl
    rw [hrun, ended, List.countP_cons]
    cases counts_step t event with
    | arrived r inFlight peak held =>
      rw [if_neg (show ¬t.ends (.arrive r) = true by nofun), Event.starts, if_pos rfl]
      omega
    | left starts ends inFlight peak held =>
      rw [if_pos ends, if_neg (by simp [starts])]
      have := hpos ends
      omega
    | cleared inFlight peak held =>
      rw [if_neg (show ¬t.ends .clearHistory = true by nofun),
        if_neg (show ¬Event.starts .clearHistory = true by nofun)]
      omega
    | kept starts ends inFlight peak held =>
      rw [if_neg (by simp [ends]), if_neg (by simp [starts])]
      omega

section Peak

theorem levels_nil (t : Traffic) : t.levels [] = {t.cluster.inFlight} := by
  ext n
  simp only [levels, List.prefix_nil, Set.mem_ofPred_eq, Set.mem_singleton_iff, exists_eq_left]
  exact eq_comm

theorem crests_nil (t : Traffic) : t.crests [] = ∅ := by
  simp [crests]

theorem levels_concat (t : Traffic) (events : List Event) (event : Event) :
    t.levels (events ++ [event]) =
      insert ((t.run events).step event).cluster.inFlight (t.levels events) := by
  ext n
  simp only [levels, List.prefix_concat_iff, Set.mem_ofPred_eq, Set.mem_insert_iff, or_and_right,
    exists_or, exists_eq_left, run_concat]
  exact or_congr_left eq_comm

theorem crests_concat (t : Traffic) (events : List Event) (event : Event) :
    t.crests (events ++ [event]) =
      if event.starts then insert ((t.run events).step event).cluster.inFlight (t.crests events)
      else t.crests events := by
  have hnew (n : Nat) : n ∈ t.crests (events ++ [event]) ↔
      event.starts = true ∧ ((t.run events).step event).cluster.inFlight = n ∨
        n ∈ t.crests events := by
    constructor
    · rintro ⟨past, last, hprefix, hstarts, rfl⟩
      rcases List.prefix_concat_iff.mp hprefix with heq | hprefix
      · obtain ⟨rfl, hlast⟩ := List.append_inj' heq rfl
        cases hlast
        exact .inl ⟨hstarts, congrArg (·.cluster.inFlight) (run_concat t past event).symm⟩
      · exact .inr ⟨past, last, hprefix, hstarts, rfl⟩
    · rintro (⟨hstarts, rfl⟩ | ⟨past, last, hprefix, hstarts, rfl⟩)
      · exact ⟨events, event, List.prefix_refl _, hstarts,
          congrArg (·.cluster.inFlight) (run_concat t events event)⟩
      · exact ⟨past, last, hprefix.trans (List.prefix_append _ _), hstarts, rfl⟩
  ext n
  rw [hnew]
  split_ifs with hstarts
  · simp [hstarts, eq_comm]
  · simp [hstarts]

/-- Up to the next time that the history is cleared, the peak is the highest crest. -/
theorem isGreatest_crests (hpeak : t.cluster.peak = 0) (h : .clearHistory ∉ events) :
    IsGreatest (insert 0 (t.crests events)) (t.run events).cluster.peak := by
  induction events using List.reverseRecOn with
  | nil =>
    rw [crests_nil]
    change IsGreatest _ t.cluster.peak
    rw [hpeak]
    simp
  | append_singleton events event ih =>
    simp only [List.mem_append, List.mem_singleton, not_or] at h
    have ih := ih h.1
    rw [crests_concat, run_concat]
    cases counts_step (t.run events) event with
    | arrived r inFlight peak held =>
      rw [Event.starts, if_pos rfl, Set.insert_comm, peak, inFlight, max_comm]
      exact ih.insert _
    | left starts ends inFlight peak held => rwa [if_neg (by simp [starts]), peak]
    | cleared inFlight peak held => exact absurd rfl h.2
    | kept starts ends inFlight peak held => rwa [if_neg (by simp [starts]), peak]

/-- The greatest value of the count is the peak, unless the count was greater at the beginning. -/
theorem isGreatest_levels (hpeak : t.cluster.peak = 0) (h : .clearHistory ∉ events) :
    IsGreatest (t.levels events) (max t.cluster.inFlight (t.run events).cluster.peak) := by
  induction events using List.reverseRecOn with
  | nil =>
    rw [levels_nil]
    change IsGreatest _ (max _ t.cluster.peak)
    rw [hpeak]
    simp
  | append_singleton events event ih =>
    simp only [List.mem_append, List.mem_singleton, not_or] at h
    have ih := ih h.1
    have hlast : (t.run events).cluster.inFlight ∈ t.levels events :=
      ⟨events, List.prefix_refl _, rfl⟩
    have hbelow := ih.2 hlast
    have hinsert := ih.insert ((t.run events).step event).cluster.inFlight
    rw [levels_concat, run_concat]
    cases counts_step (t.run events) event with
    | arrived r inFlight peak held =>
      rw [inFlight] at hinsert ⊢
      rwa [peak, max_comm (t.run events).cluster.peak, max_left_comm]
    | left starts ends inFlight peak held =>
      rwa [max_eq_right (by omega), ← peak] at hinsert
    | cleared inFlight peak held => exact absurd rfl h.2
    | kept starts ends inFlight peak held =>
      rwa [max_eq_right (by omega), ← peak] at hinsert

/-- The peak is no less than the count once a request has arrived. -/
theorem inFlight_le_peak (h : .clearHistory ∉ events)
    (hstarts : ∃ event ∈ events, event.starts = true) :
    (t.run events).cluster.inFlight ≤ (t.run events).cluster.peak := by
  induction events using List.reverseRecOn with
  | nil => simp at hstarts
  | append_singleton events event ih =>
    simp only [List.mem_append, List.mem_singleton, not_or] at h
    have hearlier (hother : event.starts = false) :
        (t.run events).cluster.inFlight ≤ (t.run events).cluster.peak := by
      obtain ⟨first, hmem, hfirst⟩ := hstarts
      rcases List.mem_append.mp hmem with hmem | hmem
      · exact ih h.1 ⟨first, hmem, hfirst⟩
      · rw [List.mem_singleton.mp hmem, hother] at hfirst
        cases hfirst
    rw [run_concat]
    cases counts_step (t.run events) event with
    | arrived r inFlight peak held =>
      rw [inFlight, peak]
      exact Nat.le_max_right _ _
    | left starts ends inFlight peak held =>
      have := hearlier starts
      omega
    | cleared inFlight peak held => exact absurd rfl h.2
    | kept starts ends inFlight peak held =>
      have := hearlier starts
      omega

end Peak

/-- How a cluster counts the requests in flight over the events since it was built. -/
structure Tallies (t : Traffic) (events : List Event) : Prop where
  inFlight_eq : (t.run events).cluster.inFlight = (t.run events).held.length
  inFlight_add_ended :
    (t.run events).cluster.inFlight + t.ended events = events.countP Event.starts
  pos_of_ends : ∀ past event, past ++ [event] <+: events → (t.run past).ends event = true →
    0 < (t.run past).cluster.inFlight
  peak_isGreatest : ∀ earlier later, SinceCleared events earlier later →
    IsGreatest (insert 0 ((t.run earlier).crests later)) (t.run events).cluster.peak
  levels_isGreatest : ∀ earlier later, SinceCleared events earlier later →
    IsGreatest ((t.run earlier).levels later)
      (max (t.run earlier).cluster.inFlight (t.run events).cluster.peak)
  /-- The peak is the greatest value of the count if that was not greater when the history was
  cleared, and only then. -/
  peak_exact : ∀ earlier later, SinceCleared events earlier later →
    (IsGreatest ((t.run earlier).levels later) (t.run events).cluster.peak ↔
      (t.run earlier).cluster.inFlight ≤ (t.run events).cluster.peak)
  inFlight_le_peak : ∀ earlier later, SinceCleared events earlier later →
    (∃ event ∈ later, event.starts = true) →
      (t.run events).cluster.inFlight ≤ (t.run events).cluster.peak

theorem tallies (requiresSecurity secured : Bool) (origin : Int64)
    (latencies : List (Pattern × Nat)) (events : List Event) :
    (start requiresSecurity secured origin latencies).Tallies events := by
  have hexact : (start requiresSecurity secured origin latencies).IsExact := rfl
  have hpeak {earlier later : List Event} (h : SinceCleared events earlier later) :
      ((start requiresSecurity secured origin latencies).run earlier).cluster.peak = 0 := by
    rcases h.cleared with rfl | hlast
    · rfl
    · obtain ⟨before, rfl⟩ := List.getLast?_eq_some_iff.mp hlast
      rw [run_concat]
      rfl
  have hlevels {earlier later : List Event} (h : SinceCleared events earlier later) :=
    isGreatest_levels (hpeak h) h.uncleared
  refine ⟨hexact.run events, ?_, fun past event _ hends => (hexact.run past).pos_of_ends hends,
    fun earlier later h => ?_, fun earlier later h => ?_, fun earlier later h => ?_,
    fun earlier later h hstarts => ?_⟩
  · have := hexact.inFlight_add_ended events
    rwa [show (start requiresSecurity secured origin latencies).cluster.inFlight = 0 from rfl,
      Nat.zero_add] at this
  · rw [h.split, run_append]
    exact isGreatest_crests (hpeak h) h.uncleared
  · rw [h.split, run_append]
    exact hlevels h
  · have hgreatest := hlevels h
    rw [h.split, run_append]
    refine ⟨fun hpeak => ?_, fun hle => by rwa [max_eq_right hle] at hgreatest⟩
    exact hpeak.2 ⟨[], List.nil_prefix, rfl⟩
  · rw [h.split, run_append]
    exact Traffic.inFlight_le_peak h.uncleared hstarts

def loadsDescribed : List Event :=
  [.arrive ⟨"loads", .describeTable⟩, .clearHistory]

/-- A request that sleeps while the history is cleared is in flight and not in the peak. -/
theorem peak_forgets_loads :
    let t := (start false false 0 [(⟨none, none, none⟩, 50)]).run loadsDescribed
    SinceCleared loadsDescribed loadsDescribed [] ∧ t.cluster.inFlight = 1 ∧
      t.cluster.peak = 0 ∧ ¬IsGreatest (t.levels []) t.cluster.peak := by
  refine ⟨⟨rfl, .inr rfl, List.not_mem_nil⟩, rfl, rfl, fun h => ?_⟩
  have hle := h.2 ⟨[], List.nil_prefix, rfl⟩
  exact absurd hle (by decide)

end Timeslice.Traffic
