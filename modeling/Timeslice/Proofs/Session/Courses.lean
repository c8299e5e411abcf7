import Timeslice.Proofs.Session.Accounting
import Timeslice.Proofs.Session.Outcome

/-!
# The course of a command

Every command but a query sends one request with its data, and the answer to it settles the command. A
query first asks for the schema of its table; only the schema of a table for which a SELECT has a plan
with pieces makes it send more, and then the first answer that does not fit settles it, or the last
one. The requests that a command has sent and the answers that it has heard say how far it has come.
-/

namespace Timeslice

open Fanout (inFlight)

variable {σ τ : Type}

/-- What a response is taken for by a request of the kind: a response of the kind's shape for itself,
and an empty one for no rows where rows are asked for. -/
inductive CommandKind.Yields : CommandKind → Response → Response → Prop where
  | shaped {kind : CommandKind} {response : Response} (shape : response.shape = kind.shape) :
    Yields kind response response
  | noRows {kind : CommandKind} (shape : kind.shape = .rows) : Yields kind .empty (.rows .empty)

theorem CommandKind.not_yields {kind : CommandKind} {response : Response}
    (hshape : response.shape ≠ kind.shape) (hrows : kind.shape = .rows → response ≠ .empty) :
    ∀ r, ¬ kind.Yields response r := by
  rintro r (hshaped | hnoRows)
  · exact hshape hshaped
  · exact hrows hnoRows rfl

namespace Command

/-- The data that a command has its request carry. A query has no such request. -/
inductive Carries : Command → Payload → Prop where
  | createTable (schema : Schema) : Carries (.createTable schema) (.createTable schema)
  | store (table : String) (rows : List Row) : Carries (.store table rows) (.store rows)
  | fetch (table : String) (key : List Cell) : Carries (.fetch table key) (.fetch key)
  | delete (table : String) (key : List Cell) : Carries (.delete table key) (.delete key)
  | listKeys (table : String) : Carries (.listKeys table) .listKeys
  | describeTable (table : String) : Carries (.describeTable table) .describeTable

inductive Ends (settings : Settings) : Command → Answer → Outcome → Prop where
  | broken (c : Command) : Ends settings c .broken (.error .aborted)
  | rejected (c : Command) (rejection : Rejection) :
    Ends settings c (.reply (.error rejection)) (.error (.rejected rejection))
  | misshapen {c : Command} {response : Response}
    (yields : ∀ r, ¬ c.opening.kind.Yields response r) :
    Ends settings c (.reply (.ok response)) (.error (.unexpectedResponse response.shape))
  | yields {c : Command} {payload : Payload} {response r : Response} (carries : c.Carries payload)
    (yields : c.kind.Yields response r) : Ends settings c (.reply (.ok response)) (.ok r)
  | described (text table : String) (schema : Schema) :
    Ends settings (.query text (.describe table)) (.reply (.ok (.table schema)))
      (.ok (.rows schema.description))
  | unplanned {schema : Schema} {select : Select} {fault : PlanFault} (text : String)
    (plan : schema.plan settings select = .error fault) :
    Ends settings (.query text (.select select)) (.reply (.ok (.table schema)))
      (.error (.unplannable fault))
  | nothing {schema : Schema} {select : Select} {plan : Plan} (text : String)
    (planned : schema.plan settings select = .ok plan) (pieces : plan.pieces = []) :
    Ends settings (.query text (.select select)) (.reply (.ok (.table schema)))
      (.ok (.rows .empty))

/-- The command is a SELECT that has this plan, with pieces, for a table of the schema. -/
structure Plans (settings : Settings) (c : Command) (schema : Schema) (plan : Plan) : Prop where
  planned : ∃ text select, c = .query text (.select select) ∧ schema.plan settings select = .ok plan
  pieces : plan.pieces ≠ []

variable {settings : Settings}

theorem Carries.opening_eq {c : Command} {payload : Payload} (h : c.Carries payload) :
    c.opening = ⟨c.table, payload⟩ := by
  cases h <;> rfl

theorem Carries.kind_eq {c : Command} {payload : Payload} (h : c.Carries payload) :
    c.opening.kind = c.kind := by
  cases h <;> rfl

theorem exists_carries {c : Command} (h : c.kind ≠ .query) : ∃ payload, c.Carries payload := by
  cases c with
  | query text statement => exact absurd rfl h
  | createTable schema => exact ⟨_, .createTable schema⟩
  | store table rows => exact ⟨_, .store table rows⟩
  | fetch table key => exact ⟨_, .fetch table key⟩
  | delete table key => exact ⟨_, .delete table key⟩
  | listKeys table => exact ⟨_, .listKeys table⟩
  | describeTable table => exact ⟨_, .describeTable table⟩

theorem afterOpening_of_carries {c : Command} {payload : Payload} (h : c.Carries payload)
    (response : Response) :
    ∃ outcome, c.afterOpening settings response = .settled outcome ∧
      c.Ends settings (.reply (.ok response)) outcome := by
  by_cases hyields : ∃ r, c.kind.Yields response r
  · obtain ⟨r, hr⟩ := hyields
    refine ⟨.ok r, ?_, .yields h hr⟩
    cases h <;> cases hr with
    | shaped shape => cases response <;> first | rfl | cases shape
    | noRows shape => first | rfl | cases shape
  · refine ⟨.error (.unexpectedResponse response.shape), ?_, .misshapen ?_⟩
    · cases h <;> cases response <;>
        first
        | rfl
        | exact absurd ⟨_, .shaped rfl⟩ hyields
        | exact absurd ⟨_, .noRows rfl⟩ hyields
    · rw [h.kind_eq]
      exact not_exists.mp hyields

theorem afterOpening_query (text : String) (statement : Statement) (response : Response) :
    (∃ outcome, (query text statement).afterOpening settings response = .settled outcome ∧
      (query text statement).Ends settings (.reply (.ok response)) outcome) ∨
    ∃ schema plan, response = .table schema ∧ (query text statement).Plans settings schema plan ∧
      (query text statement).afterOpening settings response = .goesOn (.gathering (.ofPlan plan)) := by
  cases response with
  | empty | rows result =>
    exact .inl ⟨_, rfl, .misshapen (CommandKind.not_yields (by rintro ⟨⟩) (by rintro ⟨⟩))⟩
  | table schema =>
    cases statement with
    | describe table => exact .inl ⟨_, rfl, .described text table schema⟩
    | select select =>
      cases hplan : schema.plan settings select with
      | error fault =>
        refine .inl ⟨.error (.unplannable fault), ?_, .unplanned text hplan⟩
        simp only [afterOpening, Response.asTable, plan, hplan]
      | ok p =>
        by_cases hpieces : p.pieces = []
        · refine .inl ⟨.ok (.rows .empty), ?_, .nothing text hplan hpieces⟩
          simp [afterOpening, Response.asTable, plan, hplan, hpieces]
        · refine .inr ⟨schema, p, rfl, ⟨⟨text, select, rfl, hplan⟩, hpieces⟩, ?_⟩
          simp [afterOpening, Response.asTable, plan, hplan, hpieces]

/-- The first reply settles a command, or is the schema for which it has a plan. -/
theorem receive_opened (c : Command) (settings : Settings) (slot : Nat)
    (reply : Except Rejection Response) :
    (∃ outcome, c.receive settings .opened slot reply = .settled outcome ∧
      c.Ends settings (.reply reply) outcome) ∨
    ∃ schema plan, reply = .ok (.table schema) ∧ c.Plans settings schema plan ∧
      c.receive settings .opened slot reply = .goesOn (.gathering (.ofPlan plan)) := by
  cases reply with
  | error rejection => exact .inl ⟨_, rfl, .rejected c rejection⟩
  | ok response =>
    by_cases hkind : c.kind = .query
    · cases c with
      | query text statement =>
        rcases afterOpening_query text statement response with hends | ⟨schema, plan, rfl, hplans, hgoes⟩
        · exact .inl hends
        · exact .inr ⟨schema, plan, rfl, hplans, hgoes⟩
      | createTable | store | fetch | delete | listKeys | describeTable => cases hkind
    · obtain ⟨payload, hcarries⟩ := exists_carries hkind
      exact .inl (afterOpening_of_carries hcarries response)

end Command

def Log.Asks (log : Log) (table : String) (plan : Plan) (i n : Nat) : Prop :=
  ∃ piece, plan.pieces[i]? = some piece ∧ log.requests[n]? = some (piece.request table)

theorem Log.answers_dropped (numbers : List Nat) : answers (numbers.map .dropped) = [] := by
  rw [answers, List.filterMap_map]
  exact List.filterMap_eq_nil_iff.mpr fun _ _ => rfl

theorem Log.requests_prefix {log log' : Log} (h : log <+: log') : log.requests <+: log'.requests := by
  obtain ⟨rest, rfl⟩ := h
  rw [requests_append]
  exact List.prefix_append _ _

theorem Log.request_mono {log log' : Log} {n : Nat} {r : Request} (h : log.requests[n]? = some r)
    (hlog : log <+: log') : log'.requests[n]? = some r := by
  obtain ⟨rest, hrest⟩ := Log.requests_prefix hlog
  rw [← hrest, List.getElem?_append_left (List.getElem?_eq_some_iff.mp h).1, h]

theorem Log.Asks.mono {log log' : Log} {table : String} {plan : Plan} {i n : Nat}
    (h : log.Asks table plan i n) (hlog : log <+: log') : log'.Asks table plan i n := by
  obtain ⟨piece, hpiece, hrequest⟩ := h
  exact ⟨piece, hpiece, Log.request_mono hrequest hlog⟩

/-- The requests and answers of a SELECT that has sent the first `m` pieces of a plan for the schema and
heard these parts. -/
structure Tells (c : Command) (schema : Schema) (plan : Plan) (m : Nat)
    (heard : List (Nat × ResultSet)) (log : Log) (requests : List Request)
    (answers : List (Nat × Answer)) : Prop where
  requests : requests = c.opening :: (plan.pieces.take m).map (Piece.request c.table)
  answers : ∃ n rest, answers = (n, .reply (.ok (.table schema))) :: rest ∧
    log.requests[n]? = some c.opening ∧
      List.Forall₂ (fun (a : Nat × Answer) (h : Nat × ResultSet) =>
        a.2.Carries plan h.2 ∧ log.Asks c.table plan h.1 a.1) rest heard

namespace Tells

variable {c : Command} {schema : Schema} {plan : Plan} {m i n : Nat}
  {heard : List (Nat × ResultSet)} {log log' : Log} {requests : List Request}
  {answers : List (Nat × Answer)}

theorem mono (h : Tells c schema plan m heard log requests answers) (hlog : log <+: log') :
    Tells c schema plan m heard log' requests answers := by
  obtain ⟨n, rest, hanswers, hnumber, hrest⟩ := h.answers
  exact ⟨h.requests, n, rest, hanswers, Log.request_mono hnumber hlog,
    hrest.imp fun _ _ hab => ⟨hab.1, hab.2.mono hlog⟩⟩

theorem sent (h : Tells c schema plan m heard log requests answers) (hm : m < plan.pieces.length) :
    Tells c schema plan (m + 1) heard log (requests ++ [plan.pieces[m].request c.table]) answers :=
  ⟨by rw [h.requests, List.take_succ_eq_append_getElem hm, List.map_append]; rfl, h.answers⟩

theorem answered (h : Tells c schema plan m heard log requests answers) {a : Answer} {p : ResultSet}
    (ha : a.Carries plan p) (hn : log.Asks c.table plan i n) :
    Tells c schema plan m (heard ++ [(i, p)]) log requests (answers ++ [(n, a)]) := by
  obtain ⟨first, rest, rfl, hnumber, hrest⟩ := h.answers
  exact ⟨h.requests, first, rest ++ [(n, a)], rfl, hnumber, List.rel_append hrest (.cons ⟨ha, hn⟩ .nil)⟩

end Tells

namespace Turn

/-- How far a command has come that has sent these requests and heard these answers, on a turn of its
task. The answers have the numbers that their requests have in the log of the transport. -/
inductive Course (settings : Settings) (c : Command) (requests : List Request)
    (answers : List (Nat × Answer)) (t : Turn (σ × Log) (Nat × τ)) : Prop where
  | unsent (stage : t.stage = .unsent) (outcome : t.outcome = none) (flights : t.flights = [])
    (requests_eq : requests = []) (answers_eq : answers = [])
  | opened (stage : t.stage = .opened) (outcome : t.outcome = none) (flights : t.flights.length ≤ 1)
    (numbers : ∀ f ∈ t.flights, t.state.2.requests[f.taken.1]? = some c.opening)
    (requests_eq : requests = [c.opening]) (answers_eq : answers = [])
  | ended {n : Nat} {a : Answer} {outcome : Outcome} (ends : c.Ends settings a outcome)
    (number : t.state.2.requests[n]? = some c.opening) (requests_eq : requests = [c.opening])
    (answers_eq : answers = [(n, a)]) (outcome_eq : t.outcome = some outcome)
  | gathers {schema : Schema} {plan : Plan} {m : Nat} {heard : List (Nat × ResultSet)}
    (plans : c.Plans settings schema plan) (at_ : t.At plan m heard (inFlight m heard))
    (tells : Tells c schema plan m heard t.state.2 requests answers)
    (numbers : ∀ f ∈ t.flights, t.state.2.Asks c.table plan f.slot f.taken.1)
  | resolved {schema : Schema} {plan : Plan} {m : Nat} {heard : List (Nat × ResultSet)}
    (plans : c.Plans settings schema plan) (possible : Fanout.Possible plan m heard)
    (complete : heard.length = plan.pieces.length)
    (tells : Tells c schema plan m heard t.state.2 requests answers)
    (outcome : t.outcome = some (.ok (.rows (Fanout.after plan m heard).result)))
  | failed {schema : Schema} {plan : Plan} {m i n : Nat} {heard : List (Nat × ResultSet)}
    {past : List (Nat × Answer)} {a : Answer} {cause : FailureCause}
    (plans : c.Plans settings schema plan) (possible : Fanout.Possible plan m heard)
    (tells : Tells c schema plan m heard t.state.2 requests past) (flying : i < m)
    (asks : t.state.2.Asks c.table plan i n) (answers_eq : answers = past ++ [(n, a)])
    (fails : a.Fails plan cause) (outcome : t.outcome = some (.error cause))

/-- The step from one moment of a turn to a later one goes on with the course. -/
def Leads (settings : Settings) (c : Command) (requests : List Request)
    (answers : List (Nat × Answer)) (t t' : Turn (σ × Log) (Nat × τ)) : Prop :=
  ∃ new : Log, t'.state.2 = t.state.2 ++ new ∧
    t'.Course settings c (requests ++ new.requests) (answers ++ new.answers)

variable {T : Transport σ τ} {settings : Settings} {c : Command} {requests : List Request}
  {answers : List (Nat × Answer)} {t t' t'' : Turn (σ × Log) (Nat × τ)} {taken : Nat × τ}
  {slot m i : Nat} {schema : Schema} {plan : Plan} {heard : List (Nat × ResultSet)}

theorem leads_answered {n : Nat} {a : Answer} (hlog : t'.state.2 = t.state.2 ++ [.answered n a])
    (h : t'.Course settings c requests (answers ++ [(n, a)])) :
    Leads settings c requests answers t t' :=
  ⟨[.answered n a], hlog, by simpa [Log.requests, Log.answers] using h⟩

theorem leads_sent {r : Request} {u : Turn (σ × Log) (Nat × τ)}
    (hlog : u.state.2 = t.state.2 ++ [.sent r])
    (h : Leads settings c (requests ++ [r]) answers u t') :
    Leads settings c requests answers t t' := by
  obtain ⟨new, hnew, hcourse⟩ := h
  refine ⟨.sent r :: new, by rw [hnew, hlog]; simp, ?_⟩
  simpa [Log.requests, Log.answers] using hcourse

theorem Course.leads_self (h : t'.Course settings c requests answers)
    (hlog : t'.state.2 = t.state.2) : Leads settings c requests answers t t' :=
  ⟨[], by simpa using hlog, by simpa [Log.requests, Log.answers] using h⟩

variable (T settings c) in
theorem leads_hear_opened (hstage : t.stage = .opened) (houtcome : t.outcome = none)
    (hflights : t.flights = []) (hnumber : t.state.2.requests[taken.1]? = some c.opening) :
    Leads settings c [c.opening] [] t (t.hear T.logged settings c slot taken) := by
  rcases hanswer : T.logged.answer t.state taken with ⟨s, a⟩
  unfold hear
  rw [hanswer]
  have hmono {log : Log} (h : s.2 = t.state.2 ++ log) : s.2.requests[taken.1]? = some c.opening :=
    Log.request_mono hnumber (h ▸ List.prefix_append _ _)
  cases a with
  | silent =>
    have hlog := Transport.answer_logged_silent hanswer
    refine Course.leads_self (.opened hstage houtcome (by simp [hflights]) ?_ rfl rfl) hlog
    intro f hf
    simp only [hflights, List.nil_append, List.mem_singleton] at hf
    rw [hf]
    exact hmono (hlog.trans (List.append_nil _).symm)
  | broken =>
    have hlog := Transport.answer_logged (by simp) hanswer
    exact leads_answered hlog (.ended (.broken c) (hmono hlog) rfl rfl rfl)
  | reply r =>
    have hlog := Transport.answer_logged (by simp) hanswer
    rcases c.receive_opened settings slot r with
      ⟨outcome, hreceive, hends⟩ | ⟨schema, plan, rfl, hplans, hreceive⟩
    · simp only [advance, hstage, hreceive]
      exact leads_answered hlog (.ended hends (hmono hlog) rfl rfl rfl)
    · simp only [advance, hstage, hreceive]
      have hpos : 0 < plan.pieces.length := List.length_pos_iff.mpr hplans.pieces
      have htells : Tells c schema plan 0 [] s.2 [c.opening]
          [(taken.1, .reply (.ok (.table schema)))] := ⟨rfl, taken.1, [], rfl, hmono hlog, .nil⟩
      refine leads_answered hlog (.gathers hplans
        ⟨Fanout.possible_start plan, hpos, houtcome, by rw [Fanout.ofPlan_eq], ?_⟩ htells ?_)
      · rw [hflights]
        exact .refl _
      · rw [hflights]
        rintro f ⟨⟩

theorem leads_hear_piece (hplans : c.Plans settings schema plan)
    (h : t.At plan m heard ((inFlight m heard).erase i)) (hi : i ∈ inFlight m heard)
    (htells : Tells c schema plan m heard t.state.2 requests answers)
    (hnumbers : ∀ f ∈ t.flights, t.state.2.Asks c.table plan f.slot f.taken.1)
    (hasks : t.state.2.Asks c.table plan i taken.1)
    (hhears : Hears T.logged plan m heard i taken t t') :
    Leads settings c requests answers t t' := by
  cases hhears with
  | silent answer =>
    have hlog := Transport.answer_logged_silent answer
    refine Course.leads_self (.gathers hplans (h.silent hi _ _) ?_ ?_) hlog
    · simpa only [hlog] using htells
    · intro f hf
      simp only [hlog]
      rcases List.mem_append.mp hf with hf | hf
      · exact hnumbers f hf
      · rw [List.mem_singleton.mp hf]
        exact hasks
  | broken answer =>
    have hlog := Transport.answer_logged (by simp) answer
    have hle := hlog ▸ List.prefix_append t.state.2 _
    exact leads_answered hlog (.failed hplans h.possible (htells.mono hle)
      (Fanout.mem_inFlight.mp hi).1 (hasks.mono hle) rfl rfl rfl)
  | failed answer part =>
    have hlog := Transport.answer_logged (by simp) answer
    have hle := hlog ▸ List.prefix_append t.state.2 _
    exact leads_answered hlog (.failed hplans h.possible (htells.mono hle)
      (Fanout.mem_inFlight.mp hi).1 (hasks.mono hle) rfl part rfl)
  | last answer part complete =>
    have hlog := Transport.answer_logged (by simp) answer
    have hle := hlog ▸ List.prefix_append t.state.2 _
    exact leads_answered hlog (.resolved hplans (h.possible.hear hi _) complete
      ((htells.mono hle).answered ⟨_, rfl, part⟩ (hasks.mono hle)) rfl)
  | next answer part incomplete =>
    have hlog := Transport.answer_logged (by simp) answer
    have hle := hlog ▸ List.prefix_append t.state.2 _
    exact leads_answered hlog (.gathers hplans (h.next hi _ incomplete)
      ((htells.mono hle).answered ⟨_, rfl, part⟩ (hasks.mono hle))
      fun f hf => (hnumbers f hf).mono hle)

theorem Course.wake (h : t.Course settings c requests answers) (houtcome : t.outcome = none)
    {f : Flight (Nat × τ)} (hf : t.flights.find? (fun f => f.slot == slot) = some f) :
    Leads settings c requests answers t
      ((t.land slot).hear T.logged settings c slot f.taken) := by
  have hmem := List.mem_of_find?_eq_some hf
  have hslot : f.slot = slot := by
    have hfound := List.find?_some hf
    exact beq_iff_eq.mp hfound
  cases h with
  | unsent _ _ flights =>
    rw [flights] at hmem
    cases hmem
  | opened stage outcome flights numbers requests_eq answers_eq =>
    rw [requests_eq, answers_eq]
    refine leads_hear_opened T settings c (t := t.land slot) stage outcome ?_ (numbers f hmem)
    obtain ⟨g, hg⟩ := List.length_eq_one_iff.mp
      (Nat.le_antisymm flights (List.length_pos_of_mem hmem))
    rw [hg, List.mem_singleton] at hmem
    rw [Turn.land, hg, ← hmem]
    simp [hslot]
  | @gathers schema plan m heard plans at_ tells numbers =>
    have hi : slot ∈ inFlight m heard := by
      rw [← hslot]
      exact at_.flights.mem_iff.mp (List.mem_map_of_mem hmem)
    exact leads_hear_piece (t := t.land slot) plans (at_.land slot) hi tells
      (fun g hg => numbers g (List.mem_filter.mp hg).1) (hslot ▸ numbers f hmem)
      (hears (at_.land slot) hi f.taken)
  | ended _ _ _ _ outcome | resolved _ _ _ _ outcome | failed _ _ _ _ _ _ _ outcome =>
    rw [houtcome] at outcome
    cases outcome

theorem Course.openUp (h : t.Course settings c requests answers) (houtcome : t.outcome = none)
    (hstage : t.stage = .unsent) :
    Leads settings c requests answers t
      (({ t with stage := .opened } : Turn _ _).send T.logged settings c 0 c.opening) := by
  obtain ⟨hflights, rfl, rfl⟩ : t.flights = [] ∧ requests = [] ∧ answers = [] := by
    cases h with
    | unsent _ _ flights requests_eq answers_eq => exact ⟨flights, requests_eq, answers_eq⟩
    | opened stage =>
      rw [hstage] at stage
      cases stage
    | gathers _ at_ =>
      rw [at_.stage] at hstage
      cases hstage
    | ended _ _ _ _ outcome | resolved _ _ _ _ outcome | failed _ _ _ _ _ _ _ outcome =>
      rw [houtcome] at outcome
      cases outcome
  rcases harrive : T.logged.arrive t.state c.opening with ⟨s, intake⟩
  obtain ⟨hlog, hnumber⟩ := Transport.arrive_logged harrive
  have hasked : s.2.requests[intake.taken.1]? = some c.opening := by
    rw [hlog, hnumber, Log.requests_append, List.getElem?_append_right (Nat.le_refl _)]
    simp [Log.requests]
  by_cases hdelay : intake.delay = 0
  · rw [send_atOnce (t := { t with stage := .opened }) c 0 harrive hdelay]
    exact leads_sent (u := { t with stage := .opened, state := s }) hlog
      (leads_hear_opened T settings c rfl houtcome hflights hasked)
  · rw [send_delayed (t := { t with stage := .opened }) c 0 harrive hdelay]
    refine leads_sent (u := { t with stage := .opened, state := s }) hlog
      (Course.leads_self (.opened rfl houtcome (by simp [hflights]) ?_ rfl rfl) rfl)
    intro f hf
    simp only [hflights, List.nil_append, List.mem_singleton] at hf
    rw [hf]
    exact hasked

theorem leads_of_sends (hplans : c.Plans settings schema plan)
    (h : t.At plan m heard (inFlight m heard)) (hm : m < plan.pieces.length)
    (htells : Tells c schema plan m heard t.state.2 requests answers)
    (hnumbers : ∀ f ∈ t.flights, t.state.2.Asks c.table plan f.slot f.taken.1)
    (hsends : Sends T.logged plan m heard (plan.pieces[m].request c.table) t t') :
    Leads settings c requests answers t t' := by
  have hasked {s : σ × Log} {intake : Intake (Nat × τ)}
      (harrive : T.logged.arrive t.state (plan.pieces[m].request c.table) = (s, intake)) :
      s.2.Asks c.table plan m intake.taken.1 := by
    obtain ⟨hlog, hnumber⟩ := Transport.arrive_logged harrive
    refine ⟨plan.pieces[m], List.getElem?_eq_getElem hm, ?_⟩
    rw [hlog, hnumber, Log.requests_append, List.getElem?_append_right (Nat.le_refl _)]
    simp [Log.requests]
  cases hsends with
  | @delayed s intake arrive delay =>
    have hlog := (Transport.arrive_logged arrive).1
    have hle := hlog ▸ List.prefix_append t.state.2 _
    refine leads_sent (u := t.launched plan m heard s) hlog
      (Course.leads_self (.gathers hplans (h.delayed hm _ _) ((htells.mono hle).sent hm) ?_) rfl)
    intro f hf
    rcases List.mem_append.mp hf with hf | hf
    · exact (hnumbers f hf).mono hle
    · rw [List.mem_singleton.mp hf]
      exact hasked arrive
  | @atOnce s intake _ arrive delay hears =>
    have hlog := (Transport.arrive_logged arrive).1
    have hle := hlog ▸ List.prefix_append t.state.2 _
    exact leads_sent (u := t.launched plan m heard s) hlog
      (leads_hear_piece hplans (h.launched hm _) (mem_inFlight_succ h.possible)
        ((htells.mono hle).sent hm) (fun f hf => (hnumbers f hf).mono hle) (hasked arrive) hears)

theorem Course.send (h : t.Course settings c requests answers) (houtcome : t.outcome = none)
    {f f' : Fanout} {piece : Piece} (hstage : t.stage = .gathering f)
    (hsend : f.send? settings.concurrency.toNat = some ((slot, piece), f')) :
    Leads settings c requests answers t
      (({ t with stage := .gathering f' } : Turn _ _).send T.logged settings c slot
        ⟨c.table, .query piece⟩) := by
  cases h with
  | unsent stage | opened stage =>
    rw [hstage] at stage
    cases stage
  | ended _ _ _ _ outcome | resolved _ _ _ _ outcome | failed _ _ _ _ _ _ _ outcome =>
    rw [houtcome] at outcome
    cases outcome
  | @gathers schema plan m heard plans at_ tells numbers =>
    obtain rfl : f = .after plan m heard := by
      rw [at_.stage] at hstage
      cases hstage
      rfl
    obtain ⟨hm, -, hnext, rfl⟩ := at_.possible.send_some hsend
    obtain ⟨rfl, rfl⟩ := Prod.mk.inj hnext
    exact leads_of_sends plans at_ hm tells numbers (sends at_ hm _)

theorem Course.close (h : t.Course settings c requests answers)
    (houtcome : t.outcome.isSome = true) :
    Leads settings c requests answers t
      { t with state := abandonAll T.logged t.state t.flights, flights := [] } := by
  set t' : Turn (σ × Log) (Nat × τ) :=
    { t with state := abandonAll T.logged t.state t.flights, flights := [] }
  have hlog : t'.state.2 = t.state.2 ++ (Flight.numbers t.flights).map .dropped :=
    abandonAll_numbers t.state t.flights
  have hle : t.state.2 <+: t'.state.2 := hlog ▸ List.prefix_append _ _
  refine ⟨_, hlog, ?_⟩
  rw [Log.requests_dropped, Log.answers_dropped, List.append_nil, List.append_nil]
  cases h with
  | unsent _ outcome | opened _ outcome | gathers _ outcome =>
    first
    | rw [outcome] at houtcome
    | rw [outcome.outcome] at houtcome
    cases houtcome
  | ended ends number requests_eq answers_eq outcome =>
    exact .ended ends (Log.request_mono number hle) requests_eq answers_eq outcome
  | resolved plans possible complete tells outcome =>
    exact .resolved plans possible complete (tells.mono hle) outcome
  | failed plans possible tells flying asks answers_eq fails outcome =>
    exact .failed plans possible (tells.mono hle) flying (asks.mono hle) answers_eq fails outcome

/-- A command goes on with its course when the state of the transport changes between two turns, and
whatever answers come due. -/
theorem Course.resume (h : t.Course settings c requests answers) (houtcome : t.outcome = none)
    {state : σ × Log} (hlog : t.state.2 <+: state.2) :
    (⟨state, t.stage, t.flights, [], none⟩ : Turn (σ × Log) (Nat × τ)).Course settings c requests
      answers := by
  cases h with
  | unsent stage _ flights requests_eq answers_eq =>
    exact .unsent stage rfl flights requests_eq answers_eq
  | opened stage _ flights numbers requests_eq answers_eq =>
    exact .opened stage rfl flights (fun f hf => Log.request_mono (numbers f hf) hlog) requests_eq
      answers_eq
  | gathers plans at_ tells numbers =>
    exact .gathers plans ⟨at_.possible, at_.incomplete, rfl, at_.stage, at_.flights⟩
      (tells.mono hlog) fun f hf => (numbers f hf).mono hlog
  | ended _ _ _ _ outcome | resolved _ _ _ _ outcome | failed _ _ _ _ _ _ _ outcome =>
    rw [houtcome] at outcome
    cases outcome

theorem Leads.trans (h : Leads settings c requests answers t t')
    (hnext : ∀ requests answers, t'.Course settings c requests answers →
      Leads settings c requests answers t' t'') : Leads settings c requests answers t t'' := by
  obtain ⟨new, hlog, hcourse⟩ := h
  obtain ⟨more, hmore, hcourse'⟩ := hnext _ _ hcourse
  refine ⟨new ++ more, by rw [hmore, hlog, List.append_assoc], ?_⟩
  rw [Log.requests_append, Log.answers_append, ← List.append_assoc, ← List.append_assoc]
  exact hcourse'

end Turn

/-- A turn of a task goes on with the course of its command. -/
theorem Task.course_run (T : Transport σ τ) {settings : Settings} {c : Command}
    {requests : List Request} {answers : List (Nat × Answer)} {state : σ × Log}
    {task : Task (Nat × τ)}
    (h : (⟨state, task.stage, task.flights, [], none⟩ : Turn (σ × Log) (Nat × τ)).Course settings c
      requests answers) :
    ∃ new : Log, (task.run T.logged settings c state).state.2 = state.2 ++ new ∧
      (task.run T.logged settings c state).Course settings c (requests ++ new.requests)
        (answers ++ new.answers) := by
  set start : Turn (σ × Log) (Nat × τ) := ⟨state, task.stage, task.flights, [], none⟩
  refine Task.run_induction (P := Turn.Leads settings c requests answers start)
    (Turn.Course.leads_self h rfl) ?_ ?_ ?_ ?_
  · exact fun t slot f ht houtcome hf => ht.trans fun _ _ hcourse => hcourse.wake houtcome hf
  · exact fun t ht houtcome hstage => ht.trans fun _ _ hcourse => hcourse.openUp houtcome hstage
  · exact fun t f slot piece f' ht houtcome hstage hsend =>
      ht.trans fun _ _ hcourse => hcourse.send houtcome hstage hsend
  · exact fun t ht houtcome => ht.trans fun _ _ hcourse => hcourse.close houtcome

end Timeslice
