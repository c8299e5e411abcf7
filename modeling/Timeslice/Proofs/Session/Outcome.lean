import Timeslice.Exchange.Script
import Timeslice.Proofs.Query.Planning
import Timeslice.Proofs.Session.Frame
import Timeslice.Proofs.Session.Hearing

/-!
# What a fan-out comes to

If every answer that comes in is a reply that fits, the query resolves with the parts merged in plan
order, whatever the order of the replies and the bound on requests in flight. The first reply that
does not fit fails the query, and nothing is sent or heard after it.
-/

namespace Timeslice

open Fanout (inFlight)

variable {σ τ : Type}

/-- A request for a piece of a plan. -/
def Piece.request (table : String) (piece : Piece) : Request :=
  ⟨table, .query piece⟩

section Resolved

variable {settings : Settings} {schema : Schema} {text : String} {select : Select} {plan : Plan}
  {T : Transport σ τ} {t : Turn (σ × Log) (Nat × τ)} {k m : Nat} {table : String}
  {heard : List (Nat × ResultSet)} {log : Log} {replies : Nat → Except Rejection Response}
  {parts : Nat → ResultSet}

theorem exists_mem_of_forall₂ {α β : Type} {R : α → β → Prop} {as : List α} {bs : List β}
    (h : List.Forall₂ R as bs) {b : β} (hb : b ∈ bs) : ∃ a ∈ as, R a b := by
  induction h with
  | nil => cases hb
  | cons hab _ ih =>
    rcases List.mem_cons.mp hb with rfl | hb
    · exact ⟨_, List.mem_cons_self, hab⟩
    · obtain ⟨a, ha, hR⟩ := ih hb
      exact ⟨a, List.mem_cons_of_mem _ ha, hR⟩

theorem Chronicle.heard_eq (h : Chronicle k table plan m heard log)
    (hpossible : Fanout.Possible plan m heard)
    (hreplies : ∀ i < plan.pieces.length,
      Fanout.Answers plan.columns.length (replies i) (parts i))
    (hanswers : ∀ i a, (i, a) ∈ log.answers → a = .reply (replies i)) :
    ∀ h ∈ heard, h.2 = parts h.1 := by
  rintro ⟨i, p⟩ hmem
  obtain ⟨⟨j, a⟩, ha, hij, r, hr, hpart⟩ := exists_mem_of_forall₂ h.answers hmem
  simp only at hij hr hpart
  subst hij hr
  have hlt : j < plan.pieces.length :=
    Nat.lt_of_lt_of_le (hpossible.sent j (List.mem_map_of_mem hmem)) hpossible.le
  have heq := hanswers j _ ha
  rw [Answer.reply.injEq] at heq
  rw [heq, Fanout.part_eq_ok_iff.mpr (hreplies j hlt)] at hpart
  exact (Except.ok.inj hpart).symm

theorem Chronicle.numbers_eq (h : Chronicle k table plan m heard log) :
    log.answers.map (·.1) = heard.map (·.1) := by
  have hsame := List.forall₂_map_left_iff.mpr (List.forall₂_map_right_iff.mpr
    (h.answers.imp fun _ _ hab => hab.1))
  rwa [List.forall₂_eq_eq_eq] at hsame

/-- A fan-out whose answers all carry parts: what it has sent, how much is in flight, when it ends and
what it comes to. -/
structure Turn.GathersAll (settings : Settings) (c : Command) (plan : Plan)
    (parts : Nat → ResultSet) (T : Transport σ τ) (t : Turn (σ × Log) (Nat × τ)) : Prop where
  dispatched : t.state.2.requests <+: plan.pieces.map (Piece.request c.table)
  bounded : ∀ past, past <+: t.state.2 → Log.inFlight past ≤ settings.concurrency.toNat
  window : t.outcome = none →
    t.flights.length = min settings.concurrency.toNat
        (plan.pieces.length - t.state.2.answers.length) ∧
      t.state.2.inFlight = t.flights.length ∧ 0 < t.flights.length
  ends : t.outcome.isSome = true ↔ t.state.2.answers.length = plan.pieces.length
  complete : t.outcome.isSome = true →
    t.state.2.requests = plan.pieces.map (Piece.request c.table) ∧
      (t.state.2.answers.map (·.1)).Perm (List.range plan.pieces.length) ∧ t.flights = []
  result : ∀ outcome, t.outcome = some outcome →
    outcome = .ok (.rows (plan.merge ((List.range plan.pieces.length).map parts)))
  resolves : t.outcome.isSome = true → ∀ (w : World (σ × Log) (Nat × τ)) now ticket sub,
    w.submissions[ticket]? = some sub → sub.command = c → sub.standing = .pending →
      (w.absorb now ticket sub t).standing ticket =
        .resolved (.rows (plan.merge ((List.range plan.pieces.length).map parts)))
  hears : t.outcome = none → ∀ state woken, ∀ f ∈ t.flights, f.slot ∈ woken →
    (∀ s, (T.answer s f.taken.2).2 ≠ .silent) →
      let next := Task.run T.logged settings c (state, t.state.2) ⟨t.stage, t.flights, woken⟩
      next.outcome.isSome = true ∨ f.slot ∈ next.state.2.answers.map (·.1)

theorem Gathers.hears_woken (hplan : schema.plan settings select = .ok plan)
    (h : Gathers T settings (.query text (.select select)) schema t) (waits : t.outcome = none)
    (state : σ) (woken : List Nat) {f : Flight (Nat × τ)} (hf : f ∈ t.flights)
    (hwoken : f.slot ∈ woken) (hanswers : ∀ s, (T.answer s f.taken.2).2 ≠ .silent) :
    let next := Task.run T.logged settings (.query text (.select select)) (state, t.state.2)
      ⟨t.stage, t.flights, woken⟩
    next.outcome.isSome = true ∨ f.slot ∈ next.state.2.answers.map (·.1) := by
  have hstatus := (h.settled hplan).status
  have hstart := status_resume hstatus waits state
  rw [run_resume (c := .query text (.select select)) hstatus waits]
  set woke := woken.foldl (Turn.wake T.logged settings (.query text (.select select)))
    ⟨(state, t.state.2), t.stage, t.flights, [], none⟩ with hwoke
  dsimp only
  by_cases hended : woke.outcome = none
  · have hheard := Turn.hasHeard_wakeAll settings (.query text (.select select)) hstart
      (fun _ => .inl hf) hanswers woken (.inl hwoken) hended
    exact .inr ((hheard.mono (Turn.log_launch _)).mono Turn.log_close)
  · left
    have hsome := Option.ne_none_iff_isSome.mp hended
    rw [Turn.launch_eq_self fun f hnone => absurd hnone hended, Turn.close, if_pos hsome]
    exact hsome

theorem Turn.Status.cases_of_replies (h : t.Status k table plan)
    (hreplies : ∀ i < plan.pieces.length,
      Fanout.Answers plan.columns.length (replies i) (parts i))
    (hanswers : ∀ i a, (i, a) ∈ t.state.2.answers → a = .reply (replies i)) :
    ∃ m heard, Fanout.Possible plan m heard ∧ Chronicle k table plan m heard t.state.2 ∧
      ((t.At plan m heard (inFlight m heard)) ∨
        heard.length = plan.pieces.length ∧ t.flights = [] ∧
          t.outcome = some (.ok (.rows (Fanout.after plan m heard).result))) := by
  cases h with
  | waiting hat hchronicle => exact ⟨_, _, hat.possible, hchronicle, .inl hat⟩
  | resolved possible complete chronicle outcome flights =>
    exact ⟨_, _, possible, chronicle, .inr ⟨complete, flights, outcome⟩⟩
  | @failed dropped m i heard past a cause possible incomplete chronicle flying log bounded fails =>
    exfalso
    have hmem : (i, a) ∈ t.state.2.answers := by
      rw [log, Log.answers_append]
      exact List.mem_append_right _ List.mem_cons_self
    have hlt := Nat.lt_of_lt_of_le (Fanout.mem_inFlight.mp flying).1 possible.le
    have hpart : Fanout.part plan (replies i) = .error cause := by
      have ha := hanswers i a hmem
      rw [ha] at fails
      exact fails
    rw [Fanout.part_eq_ok_iff.mpr (hreplies i hlt)] at hpart
    cases hpart

theorem Turn.Settled.window_eq (h : t.Settled settings table plan)
    (hat : t.At plan m heard (inFlight m heard))
    (hchronicle : Chronicle settings.concurrency.toNat table plan m heard t.state.2) :
    t.flights.length = min settings.concurrency.toNat
        (plan.pieces.length - t.state.2.answers.length) ∧
      t.state.2.inFlight = t.flights.length := by
  have hlength := hat.possible.length_inFlight
  have hle := hat.possible.le
  have hflights := hat.flights.length_eq
  rw [List.length_map] at hflights
  have hflying := hchronicle.inFlight_eq hat.possible
  have hbound := hchronicle.bounded t.state.2 (List.prefix_refl _)
  have hcompleted := hchronicle.answers.length_eq
  refine ⟨?_, by rw [hflying, hflights]⟩
  rcases Fanout.send_none (h.full hat.outcome _ hat.stage) with hall | hfull
  · omega
  · omega

/-- A fan-out whose answers all carry parts does not depend on the order in which they come in, nor
on how many requests may be in flight. Every turn on which a task gathers, in every run of a world, is
the turn of such a fan-out (`World.exists_gathers`). -/
theorem fanOut_independent_of_reply_order (hroom : 1 ≤ settings.concurrency.toNat)
    (hplan : schema.plan settings select = .ok plan)
    (hreplies : ∀ i < plan.pieces.length,
      Fanout.Answers plan.columns.length (replies i) (parts i))
    (h : Gathers T settings (.query text (.select select)) schema t)
    (hanswers : ∀ i a, (i, a) ∈ t.state.2.answers → a = .reply (replies i)) :
    t.GathersAll settings (.query text (.select select)) plan parts T := by
  have hsettled := h.settled hplan
  obtain ⟨m, heard, hpossible, hchronicle, hcases⟩ :=
    hsettled.status.cases_of_replies hreplies hanswers
  have hcompleted := hchronicle.answers.length_eq
  have hparts := hchronicle.heard_eq hpossible hreplies hanswers
  have hrequests : t.state.2.requests = (plan.pieces.take m).map (Piece.request select.table) :=
    hchronicle.requests
  have hdispatched : t.state.2.requests <+: plan.pieces.map (Piece.request select.table) := by
    rw [hrequests]
    exact (List.take_prefix m plan.pieces).map _
  rcases hcases with hat | ⟨hcomplete, hflights, houtcome⟩
  · have hnone : ¬ t.outcome.isSome = true := by simp [hat.outcome]
    obtain ⟨hwindow, hflying⟩ := hsettled.window_eq hat hchronicle
    have hleft := hat.incomplete
    exact
      { dispatched := hdispatched
        bounded := hchronicle.bounded
        window := fun _ => ⟨hwindow, hflying, by rw [hwindow]; omega⟩
        ends := ⟨fun hsome => absurd hsome hnone, fun heq => by omega⟩
        complete := fun hsome => absurd hsome hnone
        result := fun outcome hsome => by rw [hat.outcome] at hsome; cases hsome
        resolves := fun hsome => absurd hsome hnone
        hears := fun waits state woken f hf hwoken => h.hears_woken hplan waits state woken hf hwoken }
  · obtain ⟨rfl, hperm⟩ := hpossible.heard_perm hcomplete
    rw [hpossible.result_eq hcomplete hparts] at houtcome
    have hsome : ¬ t.outcome = none := by simp [houtcome]
    exact
      { dispatched := hdispatched
        bounded := hchronicle.bounded
        window := fun hnone => absurd hnone hsome
        ends := ⟨fun _ => by rw [hcompleted, hcomplete], fun _ => by rw [houtcome]; rfl⟩
        complete := fun _ => ⟨by rw [hrequests, List.take_length]; rfl,
          by rw [hchronicle.numbers_eq]; exact hperm, hflights⟩
        result := fun outcome houtcome' => by
          rw [houtcome] at houtcome'
          exact (Option.some.inj houtcome').symm
        resolves := fun _ w now ticket sub hsub hcommand hpending => by
          rw [World.standing, World.submission_absorb now hsub hpending houtcome, hcommand]
          simp [Command.conclude, Response.shape, CommandKind.shape, Command.kind]
        hears := fun hnone => absurd hnone hsome }

end Resolved

namespace Loads

def settings : Settings := ⟨2, 5000, 0⟩

def query : Command := .query text (.select select)

def part : Nat → ResultSet
  | 0 => ⟨plan.columns, [[.timestamp 200, .null], [.timestamp 100, .null]]⟩
  | _ => .empty

def reply : Nat → Except Rejection Response
  | 0 => .ok (.rows (part 0))
  | _ => .ok .empty

theorem answers_reply : ∀ i < plan.pieces.length,
    Fanout.Answers plan.columns.length (reply i) (part i)
  | 0, _ => .rows (by decide)
  | _ + 1, _ => .empty

def script (first second : Answer) : Script where
  rules := [(⟨some .query, none, some 0⟩, ⟨2, first⟩), (⟨some .query, none, some 1000⟩, ⟨1, second⟩)]
  served := []

def opened (s : Script) : Turn (Script × Log) (Nat × Answer) :=
  .gather Script.transport.logged settings query schema (s, [])

def resumed (t : Turn (Script × Log) (Nat × Answer)) (woken : List Nat) :
    Turn (Script × Log) (Nat × Answer) :=
  Task.run Script.transport.logged settings query (t.state.1, t.state.2) ⟨t.stage, t.flights, woken⟩

theorem gathers_opened (s : Script) : Gathers Script.transport settings query schema (opened s) :=
  .start s

theorem gathers_resumed {t : Turn (Script × Log) (Nat × Answer)}
    (h : Gathers Script.transport settings query schema t) (waits : t.outcome = none)
    (woken : List Nat) : Gathers Script.transport settings query schema (resumed t woken) :=
  .resume h waits t.state.1 woken

/-- The reply to the second piece comes in before that to the first one. -/
def overtaken : Turn (Script × Log) (Nat × Answer) :=
  resumed (resumed (opened (script (.reply (reply 0)) (.reply (reply 1)))) [1]) [0]

theorem gathers_overtaken : Gathers Script.transport settings query schema overtaken :=
  gathers_resumed (gathers_resumed (gathers_opened _) (by decide +kernel) [1]) (by decide +kernel) [0]

end Loads

/-- A SELECT of two pieces resolves though the replies to them come in the wrong order. -/
theorem loads_resolve_when_overtaken :
    Loads.overtaken.state.2.answers = [(1, .reply (Loads.reply 1)), (0, .reply (Loads.reply 0))] ∧
      Loads.overtaken.GathersAll Loads.settings Loads.query Loads.plan Loads.part
        Script.transport := by
  have hanswers : Loads.overtaken.state.2.answers =
      [(1, .reply (Loads.reply 1)), (0, .reply (Loads.reply 0))] := by decide +kernel
  refine ⟨hanswers, fanOut_independent_of_reply_order (by decide) (Loads.plan_select 2)
    Loads.answers_reply Loads.gathers_overtaken fun i a ha => ?_⟩
  rw [hanswers] at ha
  simp only [List.mem_cons, List.not_mem_nil, or_false, Prod.mk.injEq] at ha
  rcases ha with ⟨rfl, rfl⟩ | ⟨rfl, rfl⟩ <;> rfl

section Failed

/-- A fan-out that has heard a reply which fails it, as the answer to piece `i`: what was heard before
it, what is done after it and what it comes to. -/
structure Turn.FailsFast (c : Command) (plan : Plan) (past rest : Log) (i : Nat)
    (cause : FailureCause) (t : Turn (σ × Log) (Nat × τ)) : Prop where
  first : ∀ j a, (j, a) ∈ past.answers →
    ∃ reply part, a = .reply reply ∧ Fanout.Answers plan.columns.length reply part
  dropped : ∃ siblings : List Nat, rest = siblings.map .dropped ∧
    siblings.Perm ((List.range past.requests.length).filter fun j =>
      j ≠ i ∧ j ∉ past.answers.map (·.1))
  outcome : t.outcome = some (.error cause)
  landed : t.flights = []
  fails : ∀ (w : World (σ × Log) (Nat × τ)) now ticket sub,
    w.submissions[ticket]? = some sub → sub.command = c → sub.standing = .pending →
      let after := w.absorb now ticket sub t
      after.standing ticket = .failed ⟨c.table, c.kind, cause⟩ ∧
        (∀ timer ∈ after.timers, timer.ticket ≠ ticket) ∧
        (∀ T later, after.turn T later ticket = after) ∧
        ∀ timer, timer.ticket = ticket → after.expire timer = after

variable {settings : Settings} {schema : Schema} {text : String} {select : Select} {plan : Plan}
  {T : Transport σ τ} {t : Turn (σ × Log) (Nat × τ)} {k m i : Nat} {table : String}
  {heard : List (Nat × ResultSet)} {log past rest : Log} {r : Except Rejection Response}
  {cause : FailureCause}

theorem Chronicle.answers_of_mem (h : Chronicle k table plan m heard log) {j : Nat} {a : Answer}
    (ha : (j, a) ∈ log.answers) :
    ∃ reply part, a = .reply reply ∧ Fanout.Answers plan.columns.length reply part := by
  obtain ⟨h', -, -, reply, hreply, hpart⟩ := exists_mem_of_forall₂ h.answers.flip ha
  exact ⟨reply, h'.2, hreply, Fanout.part_eq_ok_iff.mp hpart⟩

theorem Chronicle.not_mem_of_refuses (h : Chronicle k table plan m heard log)
    (hrefuses : Fanout.Refuses plan.columns.length r cause) :
    Event.answered i (.reply r) ∉ log := by
  intro hmem
  have ha : (i, Answer.reply r) ∈ log.answers := List.mem_filterMap.mpr ⟨_, hmem, rfl⟩
  obtain ⟨reply, part, heq, hpart⟩ := h.answers_of_mem ha
  cases heq
  rw [← Fanout.part_eq_ok_iff, Fanout.part_eq_error_iff.mpr hrefuses] at hpart
  cases hpart

/-- The one failing answer of a log is the one over which the fan-out has failed. -/
theorem eq_of_log_eq {past' : Log} {j : Nat} {a : Answer} {dropped : List Nat}
    (hpast : Event.answered i (.reply r) ∉ past')
    (h : past' ++ .answered j a :: dropped.map .dropped = past ++ .answered i (.reply r) :: rest) :
    past' = past ∧ j = i ∧ a = .reply r ∧ dropped.map .dropped = rest := by
  have hdropped : Event.answered i (.reply r) ∉ dropped.map Event.dropped := by simp
  obtain ⟨rfl, hevent, rfl⟩ := (List.append_cons_inj_of_notMem hpast hdropped).mp h
  cases hevent
  exact ⟨rfl, rfl, rfl, rfl⟩

/-- The first reply that fails a query fails it at once, with that reply's cause. As above, this is so
of every task that gathers in a run of a world (`World.exists_gathers`). -/
theorem fanOut_fails_fast (hplan : schema.plan settings select = .ok plan)
    (h : Gathers T settings (.query text (.select select)) schema t)
    (hlog : t.state.2 = past ++ .answered i (.reply r) :: rest)
    (hrefuses : Fanout.Refuses plan.columns.length r cause) :
    t.FailsFast (.query text (.select select)) plan past rest i cause := by
  have hsettled := h.settled hplan
  have hmem : Event.answered i (.reply r) ∈ t.state.2 := by
    rw [hlog]
    exact List.mem_append_right _ List.mem_cons_self
  have hlanded := hsettled.ended
  cases hsettled.status with
  | waiting hat hchronicle => exact absurd hmem (hchronicle.not_mem_of_refuses hrefuses)
  | resolved possible complete chronicle => exact absurd hmem (chronicle.not_mem_of_refuses hrefuses)
  | @failed dropped m j heard past' a cause' possible incomplete chronicle flying log bounded fails
      outcome left =>
    rw [log] at hlog
    obtain ⟨rfl, rfl, rfl, hrest⟩ := eq_of_log_eq (chronicle.not_mem_of_refuses hrefuses) hlog
    obtain rfl : cause' = cause := by
      have hpart : Fanout.part plan r = .error cause' := fails
      rw [Fanout.part_eq_error_iff.mpr hrefuses] at hpart
      exact (Except.error.inj hpart).symm
    have hflights := hlanded (by rw [outcome]; rfl)
    refine ⟨fun j a ha => chronicle.answers_of_mem ha, ⟨dropped, hrest.symm, ?_⟩, outcome, hflights,
      ?_⟩
    · rw [hflights, List.map_nil, List.append_nil] at left
      refine left.trans (List.Perm.of_eq ?_)
      rw [Fanout.nodup_inFlight.erase_eq_filter, Fanout.inFlight, List.filter_filter,
        chronicle.length_requests possible.le, chronicle.numbers_eq]
      refine List.filter_congr fun l _ => ?_
      simp only [Bool.decide_and, decide_not, bne]
      rfl
    · intro w now ticket sub hsub hcommand hpending
      have habsorb := World.submission_absorb now hsub hpending outcome
      refine ⟨?_, ?_, fun T later => World.turn_eq_self habsorb rfl T later,
        fun timer hticket => World.expire_eq_self habsorb rfl hticket⟩
      · rw [World.standing, habsorb, hcommand]
        rfl
      · intro timer htimer
        rw [World.absorb, outcome] at htimer
        simpa using (List.mem_filter.mp htimer).2

end Failed

namespace Loads

def rejection : Rejection := ⟨.notActive, "shut down"⟩

/-- The second piece is rejected while the first one is in flight. -/
def rejected : Turn (Script × Log) (Nat × Answer) :=
  resumed (opened (script (.reply (reply 0)) (.reply (.error rejection)))) [1]

theorem gathers_rejected : Gathers Script.transport settings query schema rejected :=
  gathers_resumed (gathers_opened _) (by decide +kernel) [1]

end Loads

/-- A SELECT of two pieces fails as soon as the second one is rejected, and drops the first one. -/
theorem loads_fail_when_rejected :
    Loads.rejected.FailsFast Loads.query Loads.plan
      (Loads.plan.pieces.map fun piece => .sent (piece.request "loads")) [.dropped 0] 1
      (.rejected Loads.rejection) :=
  fanOut_fails_fast (Loads.plan_select 2) Loads.gathers_rejected (by decide +kernel)
    (.rejected Loads.rejection)

end Timeslice
