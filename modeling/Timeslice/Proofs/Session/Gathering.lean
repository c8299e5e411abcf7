import Timeslice.Proofs.Session.Log

/-!
# Gathering the answers to a plan

The log of a fan-out and its stage tell the same story. A fan-out waits, has resolved with all its
parts or has failed over one answer, and each step of a turn leaves it in one of the three.
-/

namespace Timeslice

open Fanout (inFlight)

def Answer.Fails (plan : Plan) (a : Answer) (cause : FailureCause) : Prop :=
  match a with
  | .broken => cause = .aborted
  | .reply r => Fanout.part plan r = .error cause
  | .silent => False

def Answer.Carries (plan : Plan) (a : Answer) (p : ResultSet) : Prop :=
  ∃ r, a = .reply r ∧ Fanout.part plan r = .ok p

/-- The log of a fan-out over a table that has sent the first `m` pieces and heard these parts. -/
structure Chronicle (k : Nat) (table : String) (plan : Plan) (m : Nat)
    (heard : List (Nat × ResultSet)) (log : Log) : Prop where
  requests : log.requests = (plan.pieces.take m).map fun piece => ⟨table, .query piece⟩
  answers : List.Forall₂ (fun (a : Nat × Answer) (h : Nat × ResultSet) =>
    a.1 = h.1 ∧ a.2.Carries plan h.2) log.answers heard
  drops : log.drops = []
  bounded : log.Bounded k

namespace Chronicle

variable {k m i : Nat} {table : String} {plan : Plan} {heard : List (Nat × ResultSet)} {log : Log}

theorem start (k : Nat) (table : String) (plan : Plan) : Chronicle k table plan 0 [] [] :=
  ⟨rfl, .nil, rfl, Log.bounded_nil k⟩

theorem length_requests (h : Chronicle k table plan m heard log) (hm : m ≤ plan.pieces.length) :
    log.requests.length = m := by
  rw [h.requests, List.length_map, List.length_take, Nat.min_eq_left hm]

theorem inFlight_eq (h : Chronicle k table plan m heard log)
    (hpossible : Fanout.Possible plan m heard) : log.inFlight = (inFlight m heard).length := by
  have hanswers := h.answers.length_eq
  have hlength := hpossible.length_inFlight
  rw [Log.inFlight, h.length_requests hpossible.le, hanswers, h.drops, List.length_nil]
  omega

theorem sent (h : Chronicle k table plan m heard log) (hpossible : Fanout.Possible plan m heard)
    (hm : m < plan.pieces.length) (hroom : (inFlight m heard).length < k) :
    Chronicle k table plan (m + 1) heard (log ++ [.sent ⟨table, .query plan.pieces[m]⟩]) := by
  refine ⟨?_, ?_, ?_, h.bounded.sent (by rwa [h.inFlight_eq hpossible]) _⟩
  · rw [Log.requests_append, h.requests, List.take_succ_eq_append_getElem hm, List.map_append]
    rfl
  · rw [Log.answers_append]
    simpa [Log.answers] using h.answers
  · rw [Log.drops_append, h.drops]
    rfl

theorem answered (h : Chronicle k table plan m heard log) {a : Answer} {p : ResultSet}
    (ha : a.Carries plan p) :
    Chronicle k table plan m (heard ++ [(i, p)]) (log ++ [.answered i a]) := by
  refine ⟨?_, ?_, ?_, h.bounded.answered i a⟩
  · rw [Log.requests_append, ← h.requests]
    simp [Log.requests]
  · rw [Log.answers_append]
    exact List.rel_append h.answers (.cons ⟨rfl, ha⟩ .nil)
  · rw [Log.drops_append, h.drops]
    rfl

end Chronicle

namespace Turn

variable {σ τ : Type}

def Numbered (t : Turn (σ × Log) (Nat × τ)) : Prop :=
  ∀ f ∈ t.flights, f.taken.1 = f.slot

/-- How a fan-out over a table stands between two steps of its turns. -/
inductive Status (k : Nat) (table : String) (plan : Plan) (t : Turn (σ × Log) (Nat × τ)) :
    Prop where
  | waiting {m : Nat} {heard : List (Nat × ResultSet)} (at_ : t.At plan m heard (inFlight m heard))
    (chronicle : Chronicle k table plan m heard t.state.2) (numbered : t.Numbered)
  | resolved {m : Nat} {heard : List (Nat × ResultSet)} (possible : Fanout.Possible plan m heard)
    (complete : heard.length = plan.pieces.length)
    (chronicle : Chronicle k table plan m heard t.state.2)
    (outcome : t.outcome = some (.ok (.rows (Fanout.after plan m heard).result)))
    (flights : t.flights = [])
  | failed (dropped : List Nat) {m i : Nat} {heard : List (Nat × ResultSet)} {past : Log}
    {a : Answer} {cause : FailureCause} (possible : Fanout.Possible plan m heard)
    (incomplete : heard.length < plan.pieces.length)
    (chronicle : Chronicle k table plan m heard past) (flying : i ∈ inFlight m heard)
    (log : t.state.2 = past ++ .answered i a :: dropped.map .dropped) (bounded : t.state.2.Bounded k)
    (fails : a.Fails plan cause) (outcome : t.outcome = some (.error cause))
    (left : (dropped ++ t.flights.map (·.slot)).Perm ((inFlight m heard).erase i))
    (numbered : t.Numbered)

variable {T : Transport σ τ} {settings : Settings} {c : Command} {plan : Plan} {k m i : Nat}
  {table : String} {heard : List (Nat × ResultSet)} {t t' : Turn (σ × Log) (Nat × τ)} {taken : τ}

theorem status_of_hears (h : t.At plan m heard ((inFlight m heard).erase i))
    (hi : i ∈ inFlight m heard) (hchronicle : Chronicle k table plan m heard t.state.2)
    (hnumbered : t.Numbered) (hhears : Hears T.logged plan m heard i (i, taken) t t') :
    t'.Status k table plan := by
  cases hhears with
  | silent answer =>
    have hlog := Transport.answer_logged_silent answer
    refine .waiting (h.silent hi _ _) ?_ ?_
    · simpa only [hlog] using hchronicle
    · intro f hf
      rcases List.mem_append.mp hf with hf | hf
      · exact hnumbered f hf
      · rw [List.mem_singleton.mp hf]
  | broken answer =>
    have hlog := Transport.answer_logged (by simp) answer
    refine .failed [] h.possible h.incomplete hchronicle hi hlog ?_ rfl rfl h.flights hnumbered
    simpa only [hlog] using hchronicle.bounded.answered i .broken
  | failed answer part =>
    have hlog := Transport.answer_logged (by simp) answer
    refine .failed [] h.possible h.incomplete hchronicle hi hlog ?_ part rfl h.flights hnumbered
    simpa only [hlog] using hchronicle.bounded.answered i _
  | last answer part complete =>
    have hlog := Transport.answer_logged (by simp) answer
    refine .resolved (h.possible.hear hi _) complete ?_ rfl (h.flights_eq_nil hi complete)
    simpa only [hlog] using hchronicle.answered ⟨_, rfl, part⟩
  | next answer part incomplete =>
    have hlog := Transport.answer_logged (by simp) answer
    refine .waiting (h.next hi _ incomplete) ?_ hnumbered
    simpa only [hlog] using hchronicle.answered ⟨_, rfl, part⟩

theorem Numbered.land (h : t.Numbered) (slot : Nat) : (t.land slot).Numbered :=
  fun f hf => h f (List.mem_filter.mp hf).1

theorem Status.wake (h : t.Status k table plan) (slot : Nat) :
    (t.wake T.logged settings c slot).Status k table plan := by
  cases h with
  | waiting hat hchronicle hnumbered =>
    rcases wake_cases T.logged settings c hat slot with
      hsame | ⟨f, hf, hslot, hi, hhears⟩
    · rw [hsame]
      exact .waiting hat hchronicle hnumbered
    · have htaken : f.taken = (slot, f.taken.2) := by rw [← hslot, ← hnumbered f hf]
      rw [htaken] at hhears
      exact status_of_hears (hat.land slot) hi hchronicle (hnumbered.land slot) hhears
  | resolved possible complete chronicle outcome flights =>
    rw [wake_eq_self (by rw [outcome]; rfl)]
    exact .resolved possible complete chronicle outcome flights
  | failed dropped possible incomplete chronicle flying log bounded fails outcome left numbered =>
    rw [wake_eq_self (by rw [outcome]; rfl)]
    exact .failed dropped possible incomplete chronicle flying log bounded fails outcome left numbered

variable (T settings c) in
theorem Status.wakeAll (h : t.Status k table plan) (woken : List Nat) :
    (woken.foldl (Turn.wake T.logged settings c) t).Status k table plan := by
  induction woken generalizing t with
  | nil => exact h
  | cons slot rest ih => exact ih (h.wake slot)

theorem Status.exists_at (h : t.Status k table plan) (houtcome : t.outcome = none) :
    ∃ m heard, t.At plan m heard (inFlight m heard) ∧
      Chronicle k table plan m heard t.state.2 ∧ t.Numbered := by
  cases h with
  | waiting hat hchronicle hnumbered => exact ⟨_, _, hat, hchronicle, hnumbered⟩
  | resolved possible complete chronicle outcome flights =>
    rw [houtcome] at outcome
    cases outcome
  | failed dropped possible incomplete chronicle flying log bounded fails outcome left numbered =>
    rw [houtcome] at outcome
    cases outcome

theorem status_of_sends (h : t.At plan m heard (inFlight m heard)) (hm : m < plan.pieces.length)
    (hroom : (inFlight m heard).length < k) (hchronicle : Chronicle k table plan m heard t.state.2)
    (hnumbered : t.Numbered)
    (hsends : Sends T.logged plan m heard ⟨table, .query plan.pieces[m]⟩ t t') :
    t'.Status k table plan := by
  have hsent := hchronicle.sent h.possible hm hroom
  have hlength := hchronicle.length_requests h.possible.le
  cases hsends with
  | delayed arrive delay =>
    obtain ⟨hlog, hnumber⟩ := Transport.arrive_logged arrive
    refine .waiting (h.delayed hm _ _) ?_ ?_
    · simpa only [launched, hlog] using hsent
    · intro g hg
      rcases List.mem_append.mp hg with hg | hg
      · exact hnumbered g hg
      · rw [List.mem_singleton.mp hg]
        exact hnumber.trans hlength
  | @atOnce state intake _ arrive delay hears =>
    obtain ⟨hlog, hnumber⟩ := Transport.arrive_logged arrive
    have htaken : intake.taken = (m, intake.taken.2) := by rw [← hlength, ← hnumber]
    rw [htaken] at hears
    refine status_of_hears (h.launched hm _) (mem_inFlight_succ h.possible) ?_ hnumbered hears
    simpa only [launched, hlog] using hsent

theorem Status.send (h : t.Status settings.concurrency.toNat c.table plan)
    (houtcome : t.outcome = none) {f f' : Fanout} {slot : Nat} {piece : Piece}
    (hstage : t.stage = .gathering f)
    (hsend : f.send? settings.concurrency.toNat = some ((slot, piece), f')) :
    (({ t with stage := .gathering f' } : Turn _ _).send T.logged settings c slot
      ⟨c.table, .query piece⟩).Status settings.concurrency.toNat c.table plan := by
  obtain ⟨m, heard, hat, hchronicle, hnumbered⟩ := h.exists_at houtcome
  obtain rfl : f = .after plan m heard := by
    rw [hat.stage] at hstage
    cases hstage
    rfl
  obtain ⟨hm, hroom, hnext, rfl⟩ := hat.possible.send_some hsend
  obtain ⟨rfl, rfl⟩ := Prod.mk.inj hnext
  exact status_of_sends hat hm hroom hchronicle hnumbered (sends hat hm _)

theorem Status.launch (h : t.Status settings.concurrency.toNat c.table plan) (n : Nat) :
    (launch T.logged settings c n t).Status settings.concurrency.toNat c.table plan :=
  launch_induction (P := fun t => t.Status settings.concurrency.toNat c.table plan)
    (fun _ _ _ _ _ ht houtcome hstage hsend => ht.send houtcome hstage hsend) h n

theorem Status.close (h : t.Status k table plan) :
    (t.close T.logged).Status k table plan ∧
      ((t.close T.logged).outcome.isSome = true → (t.close T.logged).flights = []) := by
  cases h with
  | waiting hat hchronicle hnumbered =>
    have hsame : t.close T.logged = t := by
      rw [Turn.close, if_neg (by simp [hat.outcome])]
    rw [hsame]
    refine ⟨.waiting hat hchronicle hnumbered, fun hsome => ?_⟩
    rw [hat.outcome] at hsome
    cases hsome
  | resolved possible complete chronicle outcome flights =>
    have hsame : t.close T.logged = t := by
      rw [Turn.close, if_pos (by rw [outcome]; rfl), flights, Turn.abandonAll, List.foldl_nil,
        ← flights]
    rw [hsame]
    exact ⟨.resolved possible complete chronicle outcome flights, fun _ => flights⟩
  | failed dropped possible incomplete chronicle flying log bounded fails outcome left numbered =>
    have hstate : (abandonAll T.logged t.state t.flights).2 =
        t.state.2 ++ (t.flights.map (·.slot)).map .dropped := by
      rw [Transport.abandonAll_logged, List.map_map]
      exact congrArg _ (List.map_congr_left fun f hf => congrArg Event.dropped (numbered f hf))
    rw [Turn.close, if_pos (by rw [outcome]; rfl)]
    refine ⟨.failed (dropped ++ t.flights.map (·.slot)) possible incomplete chronicle flying ?_ ?_
      fails outcome ?_ ?_, fun _ => rfl⟩
    · rw [hstate, log, List.append_assoc, List.cons_append, ← List.map_append]
    · rw [hstate]
      exact bounded.droppedAll _
    · simpa using left
    · rintro f ⟨⟩

/-- How a fan-out stands after a whole turn: nothing is in flight at the end, and a fan-out that waits
has no room for another piece. -/
structure Settled (settings : Settings) (table : String) (plan : Plan)
    (t : Turn (σ × Log) (Nat × τ)) : Prop where
  status : t.Status settings.concurrency.toNat table plan
  ended : t.outcome.isSome = true → t.flights = []
  full : t.outcome = none → ∀ f, t.stage = .gathering f →
    f.send? settings.concurrency.toNat = none

/-- The rest of a turn that the fan-out is in from the start, or comes into by hearing the schema. -/
theorem Status.finish (h : t.Status settings.concurrency.toNat c.table plan) {n : Nat}
    (hn : t.unsent ≤ n) :
    ((Turn.launch T.logged settings c n t).close T.logged).Settled settings c.table plan := by
  obtain ⟨hstatus, hflights⟩ := (h.launch (T := T) n).close (T := T)
  exact ⟨hstatus, hflights, fun houtcome _ hstage => close_launch_full hn houtcome hstage⟩

end Turn

/-- The turns of a query's task from the one that hears the schema. Between two turns the transport
can come into any state, and any slots can be woken. -/
inductive Gathers {σ τ : Type} (T : Transport σ τ) (settings : Settings) (c : Command)
    (schema : Schema) : Turn (σ × Log) (Nat × τ) → Prop where
  | start (state : σ) : Gathers T settings c schema (.gather T.logged settings c schema (state, []))
  | resume {t : Turn (σ × Log) (Nat × τ)} (run : Gathers T settings c schema t)
    (waits : t.outcome = none) (state : σ) (woken : List Nat) :
    Gathers T settings c schema
      (Task.run T.logged settings c (state, t.state.2) ⟨t.stage, t.flights, woken⟩)

namespace Gathers

variable {σ τ : Type} {T : Transport σ τ} {settings : Settings} {schema : Schema} {plan : Plan}
  {text : String} {select : Select} {t : Turn (σ × Log) (Nat × τ)}

theorem settled_start (hplan : schema.plan settings select = .ok plan) (state : σ) :
    (Turn.gather T.logged settings (.query text (.select select)) schema (state, [])).Settled
      settings select.table plan := by
  have hchronicle := Chronicle.start settings.concurrency.toNat select.table plan
  refine Turn.Status.finish (c := .query text (.select select)) ?_ (Nat.le_refl _)
  rw [Turn.advance_opened hplan]
  split_ifs with hempty
  · have hnil : plan.pieces = [] := List.isEmpty_iff.mp hempty
    refine .resolved (Fanout.possible_start plan) (by rw [hnil]; rfl) hchronicle ?_ rfl
    rw [Fanout.result, Plan.merge]
    simp [Fanout.after, hnil]
    rfl
  · have hpos : 0 < plan.pieces.length := List.length_pos_iff.mpr fun hnil => hempty (by rw [hnil]; rfl)
    exact .waiting ⟨Fanout.possible_start plan, hpos, rfl, by rw [Fanout.ofPlan_eq], .refl _⟩ hchronicle
      (by rintro f ⟨⟩)

theorem status_resume {k : Nat} {table : String} (h : t.Status k table plan)
    (waits : t.outcome = none) (state : σ) :
    (⟨(state, t.state.2), t.stage, t.flights, [], none⟩ : Turn (σ × Log) (Nat × τ)).Status k table
      plan := by
  obtain ⟨m, heard, hat, hchronicle, hnumbered⟩ := h.exists_at waits
  exact .waiting ⟨hat.possible, hat.incomplete, rfl, hat.stage, hat.flights⟩ hchronicle hnumbered

theorem run_resume {c : Command} (h : t.Status settings.concurrency.toNat c.table plan)
    (waits : t.outcome = none) (state : σ) (woken : List Nat) :
    Task.run T.logged settings c (state, t.state.2) ⟨t.stage, t.flights, woken⟩ =
      let t := woken.foldl (Turn.wake T.logged settings c)
        ⟨(state, t.state.2), t.stage, t.flights, [], none⟩
      (Turn.launch T.logged settings c t.unsent t).close T.logged := by
  have hwoken := (status_resume h waits state).wakeAll T settings c woken
  unfold Task.run
  dsimp only
  rw [Turn.openUp_eq_self]
  intro hnone
  obtain ⟨m, heard, hat, -, -⟩ := hwoken.exists_at hnone
  rw [hat.stage]
  simp

/-- After each turn a fan-out waits with no room for more, has resolved or has failed. -/
theorem settled (hplan : schema.plan settings select = .ok plan)
    (h : Gathers T settings (.query text (.select select)) schema t) :
    t.Settled settings select.table plan := by
  induction h with
  | start state => exact settled_start hplan state
  | @resume t run waits state woken ih =>
    rw [run_resume (c := .query text (.select select)) ih.status waits]
    exact Turn.Status.finish (c := .query text (.select select))
      ((status_resume ih.status waits state).wakeAll T settings _ woken) (Nat.le_refl _)

end Gathers

end Timeslice
