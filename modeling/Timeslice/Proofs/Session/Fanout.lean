import Mathlib.Data.List.Nodup
import Mathlib.Data.List.Perm.Basic
import Timeslice.Proofs.Results
import Timeslice.Session.Fanout

/-!
# Where a fan-out stands

A fan-out stands where its history has brought it: the pieces that have been sent are the first ones
of the plan, and the parts that have been heard fill the slots of their pieces.
-/

namespace Timeslice.Fanout

def fill (n : Nat) (heard : List (Nat × ResultSet)) : List (Option ResultSet) :=
  heard.foldl (fun slots h => slots.set h.1 (some h.2)) (List.replicate n none)

def inFlight (m : Nat) (heard : List (Nat × ResultSet)) : List Nat :=
  (List.range m).filter fun i => i ∉ heard.map (·.1)

/-- The fan-out that has sent the first `m` pieces and heard these parts. -/
def after (plan : Plan) (m : Nat) (heard : List (Nat × ResultSet)) : Fanout where
  plan := plan
  slots := fill plan.pieces.length heard
  waiting := inFlight m heard
  unsent := ((List.range plan.pieces.length).zip plan.pieces).drop m

/-- A history that a fan-out can have: only pieces that have been sent are heard, and once each. -/
structure Possible (plan : Plan) (m : Nat) (heard : List (Nat × ResultSet)) : Prop where
  le : m ≤ plan.pieces.length
  distinct : (heard.map (·.1)).Nodup
  sent : ∀ i ∈ heard.map (·.1), i < m

variable {plan : Plan} {m i k : Nat} {heard : List (Nat × ResultSet)}

theorem possible_start (plan : Plan) : Possible plan 0 [] :=
  ⟨Nat.zero_le _, List.nodup_nil, by rintro i ⟨⟩⟩

theorem ofPlan_eq (plan : Plan) : ofPlan plan = after plan 0 [] := by
  rw [ofPlan, after, fill, List.foldl_nil, List.map_const', List.drop_zero]
  rfl

theorem mem_inFlight : i ∈ inFlight m heard ↔ i < m ∧ i ∉ heard.map (·.1) := by
  simp [inFlight, List.mem_filter]

theorem nodup_inFlight : (inFlight m heard).Nodup :=
  List.nodup_range.filter _

theorem Possible.length_inFlight (h : Possible plan m heard) :
    (inFlight m heard).length + heard.length = m := by
  have hperm : (inFlight m heard ++ heard.map (·.1)).Perm (List.range m) := by
    refine (List.perm_ext_iff_of_nodup ?_ List.nodup_range).mpr fun j => ?_
    · refine nodup_inFlight.append h.distinct fun j hflight hheard => ?_
      exact (mem_inFlight.mp hflight).2 hheard
    · rw [List.mem_append, mem_inFlight, List.mem_range]
      constructor
      · rintro (hj | hj)
        · exact hj.1
        · exact h.sent j hj
      · intro hj
        by_cases hheard : j ∈ heard.map (·.1)
        · exact .inr hheard
        · exact .inl ⟨hj, hheard⟩
  have := hperm.length_eq
  rwa [List.length_append, List.length_map, List.length_range] at this

theorem Possible.send (h : Possible plan m heard) (hm : m < plan.pieces.length) :
    Possible plan (m + 1) heard :=
  ⟨hm, h.distinct, fun j hj => Nat.lt_succ_of_lt (h.sent j hj)⟩

theorem Possible.hear (h : Possible plan m heard) (hi : i ∈ inFlight m heard) (part : ResultSet) :
    Possible plan m (heard ++ [(i, part)]) := by
  obtain ⟨hlt, hnew⟩ := mem_inFlight.mp hi
  refine ⟨h.le, ?_, ?_⟩
  · rw [List.map_append, List.map_singleton, List.nodup_append]
    refine ⟨h.distinct, List.nodup_singleton i, ?_⟩
    rintro j hj l hl rfl
    obtain rfl := List.mem_singleton.mp hl
    exact hnew hj
  · intro j hj
    rw [List.map_append, List.mem_append] at hj
    rcases hj with hj | hj
    · exact h.sent j hj
    · rw [List.map_singleton, List.mem_singleton] at hj
      rw [hj]
      exact hlt

theorem Possible.inFlight_succ (h : Possible plan m heard) :
    inFlight (m + 1) heard = inFlight m heard ++ [m] := by
  have hm : m ∉ heard.map (·.1) := fun hmem => absurd (h.sent m hmem) (Nat.lt_irrefl m)
  rw [inFlight, inFlight, List.range_succ, List.filter_append]
  congr 1
  simp [hm]

theorem inFlight_hear (part : ResultSet) :
    (inFlight m heard).erase i = inFlight m (heard ++ [(i, part)]) := by
  rw [nodup_inFlight.erase_eq_filter, inFlight, inFlight, List.filter_filter]
  refine List.filter_congr fun j _ => ?_
  simp only [List.map_append, List.map_singleton, List.mem_append, List.mem_singleton, not_or,
    Bool.decide_and, decide_not, Bool.and_comm]
  rfl

theorem fill_hear (n : Nat) (part : ResultSet) :
    fill n (heard ++ [(i, part)]) = (fill n heard).set i (some part) := by
  rw [fill, List.foldl_append]
  rfl

theorem unsent_after (hm : m < plan.pieces.length) :
    (after plan m heard).unsent = (m, plan.pieces[m]) :: (after plan (m + 1) heard).unsent := by
  rw [after, List.drop_eq_getElem_cons (by simpa using hm)]
  simp [after]

theorem length_unsent (plan : Plan) (m : Nat) (heard : List (Nat × ResultSet)) :
    (after plan m heard).unsent.length = plan.pieces.length - m := by
  simp [after]

theorem Possible.send_some (h : Possible plan m heard) {next : Nat × Piece} {f : Fanout}
    (hsend : send? k (after plan m heard) = some (next, f)) :
    ∃ hm : m < plan.pieces.length, (inFlight m heard).length < k ∧
      next = (m, plan.pieces[m]) ∧ f = after plan (m + 1) heard := by
  by_cases hm : m < plan.pieces.length
  · simp only [send?, unsent_after hm] at hsend
    by_cases hk : (after plan m heard).waiting.length < k
    · rw [if_pos hk] at hsend
      cases hsend
      refine ⟨hm, hk, rfl, ?_⟩
      simp only [after, h.inFlight_succ]
    · rw [if_neg hk] at hsend
      cases hsend
  · have hnil : (after plan m heard).unsent = [] := by
      rw [← List.length_eq_zero_iff, length_unsent]
      omega
    simp only [send?, hnil] at hsend
    cases hsend

theorem send_none (hsend : send? k (after plan m heard) = none) :
    plan.pieces.length ≤ m ∨ k ≤ (inFlight m heard).length := by
  by_contra hno
  obtain ⟨hm, hk⟩ := not_or.mp hno
  simp only [send?, unsent_after (Nat.not_le.mp hm)] at hsend
  have hroom : (after plan m heard).waiting.length < k := Nat.not_le.mp hk
  rw [if_pos hroom] at hsend
  cases hsend

theorem length_unsent_send {f f' : Fanout} {next : Nat × Piece} (h : f.send? k = some (next, f')) :
    f'.unsent.length + 1 = f.unsent.length := by
  unfold send? at h
  split at h
  · cases h
  · next first rest hunsent =>
    split_ifs at h
    cases h
    rw [hunsent, List.length_cons]

theorem receive_after (reply : Except Rejection Response) :
    (after plan m heard).receive i reply =
      (part plan reply).map fun p => after plan m (heard ++ [(i, p)]) := by
  unfold receive
  congr 1
  funext p
  simp only [after, inFlight_hear p, fill_hear]

theorem Possible.isComplete_iff (h : Possible plan m heard) :
    (after plan m heard).isComplete = true ↔ heard.length = plan.pieces.length := by
  have hflight := h.length_inFlight
  have hle := h.le
  have hunsent := length_unsent plan m heard
  have hwaiting : (after plan m heard).waiting = inFlight m heard := rfl
  rw [isComplete, Bool.and_eq_true, List.isEmpty_iff_length_eq_zero,
    List.isEmpty_iff_length_eq_zero, hwaiting]
  omega

theorem getElem?_foldl_set {parts : Nat → ResultSet} (hparts : ∀ h ∈ heard, h.2 = parts h.1)
    (slots : List (Option ResultSet)) (j : Nat) :
    (heard.foldl (fun slots h => slots.set h.1 (some h.2)) slots)[j]? =
      if j ∈ heard.map (·.1) ∧ j < slots.length then some (some (parts j)) else slots[j]? := by
  induction heard generalizing slots with
  | nil => simp
  | cons h rest ih =>
    rw [List.forall_mem_cons] at hparts
    rw [List.foldl_cons, ih hparts.2, List.length_set, List.getElem?_set, hparts.1]
    simp only [List.map_cons, List.mem_cons]
    split_ifs <;> simp_all

theorem Possible.heard_perm (h : Possible plan m heard)
    (hcomplete : heard.length = plan.pieces.length) :
    m = plan.pieces.length ∧ (heard.map (·.1)).Perm (List.range plan.pieces.length) := by
  have hflight := h.length_inFlight
  have hle := h.le
  have hnil : inFlight m heard = [] := List.eq_nil_of_length_eq_zero (by omega)
  have hm : m = plan.pieces.length := by omega
  refine ⟨hm, (List.perm_ext_iff_of_nodup h.distinct List.nodup_range).mpr fun j => ?_⟩
  rw [List.mem_range, ← hm]
  refine ⟨h.sent j, fun hj => ?_⟩
  by_contra hnew
  have hmem := mem_inFlight.mpr ⟨hj, hnew⟩
  rw [hnil] at hmem
  cases hmem

/-- The part that has been heard of a piece is one, for no piece is heard twice. -/
theorem Possible.exists_parts (h : Possible plan m heard) :
    ∃ parts : Nat → ResultSet, ∀ p ∈ heard, p.2 = parts p.1 := by
  refine ⟨fun i => (heard.find? fun p => p.1 == i).elim .empty (·.2), fun p hp => ?_⟩
  obtain ⟨q, hq⟩ := Option.isSome_iff_exists.mp
    (List.find?_isSome (p := fun q : Nat × ResultSet => q.1 == p.1).mpr ⟨p, hp, by simp⟩)
  have hnumber := List.find?_some hq
  dsimp only
  rw [hq, Option.elim_some, List.inj_on_of_nodup_map h.distinct (List.mem_of_find?_eq_some hq) hp
    (beq_iff_eq.mp hnumber)]

theorem Possible.fill_eq (h : Possible plan m heard)
    (hcomplete : heard.length = plan.pieces.length) {parts : Nat → ResultSet}
    (hparts : ∀ h ∈ heard, h.2 = parts h.1) :
    fill plan.pieces.length heard =
      (List.range plan.pieces.length).map fun i => some (parts i) := by
  refine List.ext_getElem? fun j => ?_
  rw [fill, getElem?_foldl_set hparts, List.length_replicate, List.getElem?_replicate,
    List.getElem?_map]
  by_cases hj : j < plan.pieces.length
  · have hmem : j ∈ heard.map (·.1) :=
      (h.heard_perm hcomplete).2.mem_iff.mpr (List.mem_range.mpr hj)
    rw [if_pos ⟨hmem, hj⟩, List.getElem?_range hj, Option.map_some]
  · rw [if_neg (by simp [hj]), if_neg hj, List.getElem?_eq_none (by simpa using hj)]
    rfl

/-- The result of a fan-out that has heard all its pieces, in whatever order. -/
theorem Possible.result_eq (h : Possible plan m heard)
    (hcomplete : heard.length = plan.pieces.length) {parts : Nat → ResultSet}
    (hparts : ∀ h ∈ heard, h.2 = parts h.1) :
    (after plan m heard).result =
      plan.merge ((List.range plan.pieces.length).map parts) := by
  have hslots : (after plan m heard).slots = fill plan.pieces.length heard := rfl
  rw [result, hslots, h.fill_eq hcomplete hparts, List.map_map]
  rfl

/-- A reply that answers a piece, and the part it carries: nothing, or rows of the plan's width. -/
inductive Answers (width : Nat) : Except Rejection Response → ResultSet → Prop where
  | empty : Answers width (.ok .empty) .empty
  | rows {part : ResultSet} (fits : ∀ row ∈ part.rows, row.length = width) :
    Answers width (.ok (.rows part)) part

/-- A reply that fails the query, and the cause: a rejection, the schema of a table, or rows of which
the first misfit is reported. -/
inductive Refuses (width : Nat) : Except Rejection Response → FailureCause → Prop where
  | rejected (rejection : Rejection) : Refuses width (.error rejection) (.rejected rejection)
  | table (schema : Schema) : Refuses width (.ok (.table schema)) (.unexpectedResponse .table)
  | misfit {part : ResultSet} {before rest : List Row} {row : Row}
    (rows : part.rows = before ++ row :: rest) (fits : ∀ r ∈ before, r.length = width)
    (length : row.length ≠ width) :
    Refuses width (.ok (.rows part)) (.invalidData (.arityMismatch .row width row.length))

theorem checkWidth_eq_ok {width : Nat} {p q : ResultSet} :
    checkWidth width p = .ok q ↔ p = q ∧ ∀ row ∈ p.rows, row.length = width := by
  unfold checkWidth
  split
  · next hnone =>
    have hfits : ∀ row ∈ p.rows, row.length = width := by simpa using hnone
    exact ⟨fun h => ⟨Except.ok.inj h, hfits⟩, fun h => congrArg _ h.1⟩
  · next row hrow =>
    have hmisfit := List.find?_some hrow
    refine ⟨nofun, fun h => ?_⟩
    rw [h.2 row (List.mem_of_find?_eq_some hrow)] at hmisfit
    simp at hmisfit

theorem part_eq_ok_iff {reply : Except Rejection Response} {p : ResultSet} :
    part plan reply = .ok p ↔ Answers plan.columns.length reply p := by
  constructor
  · intro h
    rcases reply with rejection | response
    · cases h
    · obtain ⟨rows, hrows, hcheck⟩ := Except.exists_of_bind h
      obtain ⟨rfl, hfits⟩ := checkWidth_eq_ok.mp hcheck
      cases response with
      | empty =>
        cases hrows
        exact .empty
      | rows result =>
        cases hrows
        exact .rows hfits
      | table schema => cases hrows
  · rintro (_ | hfits)
    · rfl
    · exact checkWidth_eq_ok.mpr ⟨rfl, hfits⟩

theorem part_eq_error_iff {reply : Except Rejection Response} {cause : FailureCause} :
    part plan reply = .error cause ↔ Refuses plan.columns.length reply cause := by
  constructor
  · intro h
    rcases reply with rejection | response
    · cases h
      exact .rejected rejection
    · cases response with
      | empty => cases h
      | table schema =>
        cases h
        exact .table schema
      | rows result =>
        change checkWidth plan.columns.length result = _ at h
        unfold checkWidth at h
        split at h
        · cases h
        · next row hrow =>
          cases h
          obtain ⟨hlength, before, rest, hrows, hfits⟩ := List.find?_eq_some_iff_append.mp hrow
          refine .misfit hrows (fun r hr => ?_) (bne_iff_ne.mp hlength)
          simpa using hfits r hr
  · intro h
    cases h with
    | rejected rejection => rfl
    | table schema => rfl
    | @misfit p before rest row rows fits length =>
      have hfind : (p.rows.find? fun row => row.length != plan.columns.length) = some row := by
        refine List.find?_eq_some_iff_append.mpr ⟨by simpa using length, before, rest, rows, ?_⟩
        intro r hr
        simpa using fits r hr
      change checkWidth plan.columns.length p = _
      rw [checkWidth, hfind]

end Timeslice.Fanout
