import Timeslice.Proofs.Session.Standings
import Timeslice.Proofs.Session.Typing

/-!
# What a command makes of its replies

Whatever a transport replies, a command sends what it has to send and no more, and how it stands in
the end is read off its replies: a rejection or a reply of the wrong shape fails the command with just
that, and only replies that fit all its requests resolve it.
-/

namespace Timeslice

open Fanout (inFlight)

variable {σ τ : Type} {T : Transport σ τ} {settings : Settings} {c : Command}

/-- A reply that a request in the log has had, and what the request takes it for. -/
def Log.Fits (log : Log) (r : Request) (a : Nat × Answer) : Prop :=
  ∃ response result, a.2 = .reply (.ok response) ∧ log.requests[a.1]? = some r ∧
    r.kind.Yields response result

theorem Command.Plans.opening_eq {schema : Schema} {plan : Plan} (h : c.Plans settings schema plan) :
    c.opening = ⟨c.table, .describeTable⟩ := by
  obtain ⟨text, select, rfl, -⟩ := h.planned
  rfl

theorem Command.Plans.unique {schema : Schema} {plan plan' : Plan} (h : c.Plans settings schema plan)
    (h' : c.Plans settings schema plan') : plan' = plan := by
  obtain ⟨text, select, rfl, hplan⟩ := h.planned
  obtain ⟨text', select', heq, hplan'⟩ := h'.planned
  cases heq
  exact Except.ok.inj (hplan'.symm.trans hplan)

theorem CommandKind.Yields.unique {kind : CommandKind} {response r r' : Response}
    (h : kind.Yields response r) (h' : kind.Yields response r') : r' = r := by
  cases h with
  | shaped shape =>
    cases h' with
    | shaped => rfl
    | noRows rows =>
      rw [rows] at shape
      cases shape
  | noRows rows =>
    cases h' with
    | shaped shape =>
      rw [rows] at shape
      cases shape
    | noRows => rfl

namespace Command.Ends

variable {a : Answer} {outcome outcome' : Outcome}

theorem not_plans {schema : Schema} {plan : Plan}
    (h : c.Ends settings (.reply (.ok (.table schema))) outcome) :
    ¬ c.Plans settings schema plan := by
  intro hplans
  obtain ⟨text, select, rfl, hplan⟩ := hplans.planned
  cases h with
  | misshapen yields => exact yields _ (.shaped rfl)
  | yields carries => cases carries
  | unplanned _ unplanned =>
    rw [hplan] at unplanned
    cases unplanned
  | nothing _ planned pieces =>
    rw [hplan] at planned
    cases planned
    exact hplans.pieces pieces

theorem unique (h : c.Ends settings a outcome) (h' : c.Ends settings a outcome') :
    outcome' = outcome := by
  cases h with
  | broken | rejected =>
    cases h'
    rfl
  | misshapen none =>
    cases h' with
    | misshapen => rfl
    | yields carries yields => exact absurd (carries.kind_eq.symm ▸ yields) (none _)
    | described | unplanned | nothing => exact absurd (.shaped rfl) (none _)
  | yields carries yields =>
    cases h' with
    | misshapen none => exact absurd (carries.kind_eq.symm ▸ yields) (none _)
    | yields _ yields' => rw [yields.unique yields']
    | described | unplanned | nothing => cases carries
  | described =>
    cases h' with
    | misshapen none => exact absurd (.shaped rfl) (none _)
    | yields carries => cases carries
    | described => rfl
  | unplanned _ plan =>
    cases h' with
    | misshapen none => exact absurd (.shaped rfl) (none _)
    | yields carries => cases carries
    | unplanned _ plan' =>
      rw [plan] at plan'
      cases plan'
      rfl
    | nothing _ planned =>
      rw [plan] at planned
      cases planned
  | nothing _ planned =>
    cases h' with
    | misshapen none => exact absurd (.shaped rfl) (none _)
    | yields carries => cases carries
    | unplanned _ plan =>
      rw [plan] at planned
      cases planned
    | nothing => rfl

theorem exists_yields {response : Response} (h : c.Ends settings a (.ok response)) :
    ∃ reply result, a = .reply (.ok reply) ∧ c.opening.kind.Yields reply result := by
  cases h with
  | yields carries yields => exact ⟨_, _, rfl, carries.kind_eq.symm ▸ yields⟩
  | described | nothing => exact ⟨_, _, rfl, .shaped rfl⟩

end Command.Ends

theorem Fanout.Answers.yields {width : Nat} {reply : Except Rejection Response} {part : ResultSet}
    (h : Fanout.Answers width reply part) :
    ∃ response, reply = .ok response ∧ CommandKind.query.Yields response (.rows part) := by
  cases h with
  | empty => exact ⟨_, rfl, .noRows rfl⟩
  | rows => exact ⟨_, rfl, .shaped rfl⟩

namespace Tells

variable {schema : Schema} {plan : Plan} {m : Nat} {heard : List (Nat × ResultSet)} {log : Log}
  {requests : List Request} {answers : List (Nat × Answer)}

theorem answer_eq (h : Tells c schema plan m heard log requests answers)
    {more rest : List (Nat × Answer)} {n : Nat} {a : Answer}
    (hfirst : answers ++ more = (n, a) :: rest) : a = .reply (.ok (.table schema)) := by
  obtain ⟨first, others, rfl, -⟩ := h.answers
  cases hfirst
  rfl

theorem fits (h : Tells c schema plan m heard log requests answers)
    (hplans : c.Plans settings schema plan) {a : Nat × Answer} (ha : a ∈ answers) :
    ∃ r, log.Fits r a := by
  obtain ⟨n, rest, rfl, hnumber, hrest⟩ := h.answers
  rcases List.mem_cons.mp ha with rfl | ha
  · refine ⟨c.opening, .table schema, .table schema, rfl, hnumber, .shaped ?_⟩
    rw [hplans.opening_eq]
    rfl
  · obtain ⟨p, -, ⟨reply, hreply, hpart⟩, piece, -, hrequest⟩ :=
      exists_mem_of_forall₂ hrest.flip ha
    obtain ⟨response, rfl, hyields⟩ := (Fanout.part_eq_ok_iff.mp hpart).yields
    exact ⟨_, response, _, hreply, hrequest, hyields⟩

/-- A SELECT that has gathered all parts has a fitting answer to each of its requests. -/
theorem complete (h : Tells c schema plan m heard log requests answers)
    (hplans : c.Plans settings schema plan) (hpossible : Fanout.Possible plan m heard)
    (hcomplete : heard.length = plan.pieces.length) {r : Request} (hr : r ∈ requests) :
    ∃ a ∈ answers, log.Fits r a := by
  obtain ⟨n, rest, rfl, hnumber, hrest⟩ := h.answers
  rw [h.requests] at hr
  rcases List.mem_cons.mp hr with rfl | hr
  · refine ⟨_, List.mem_cons_self, .table schema, .table schema, rfl, hnumber, .shaped ?_⟩
    rw [hplans.opening_eq]
    rfl
  · obtain ⟨piece, hpiece, rfl⟩ := List.mem_map.mp hr
    obtain ⟨i, hi, rfl⟩ := List.getElem_of_mem (List.mem_of_mem_take hpiece)
    have hheard : i ∈ heard.map (·.1) :=
      (hpossible.heard_perm hcomplete).2.mem_iff.mpr (List.mem_range.mpr hi)
    obtain ⟨⟨j, p⟩, hp, rfl⟩ := List.mem_map.mp hheard
    obtain ⟨a, ha, ⟨reply, hreply, hpart⟩, piece, hpiece', hrequest⟩ := exists_mem_of_forall₂ hrest hp
    obtain ⟨response, rfl, hyields⟩ := (Fanout.part_eq_ok_iff.mp hpart).yields
    rw [List.getElem?_eq_getElem hi] at hpiece'
    rw [← Option.some.inj hpiece'] at hrequest
    exact ⟨a, List.mem_cons_of_mem _ ha, response, _, hreply, hrequest, hyields⟩

end Tells

def Log.Brings (log : Log) (table : String) (plan : Plan) (answers : List (Nat × Answer)) (i : Nat)
    (part : ResultSet) : Prop :=
  ∃ n reply, (n, .reply reply) ∈ answers ∧ log.Asks table plan i n ∧
    Fanout.Answers plan.columns.length reply part

section Mono

variable {log log' : Log} {answers : List (Nat × Answer)}

theorem Log.Fits.mono {r : Request} {a : Nat × Answer} (h : log.Fits r a) (hlog : log <+: log') :
    log'.Fits r a := by
  obtain ⟨response, result, ha, hrequest, hyields⟩ := h
  exact ⟨response, result, ha, Log.request_mono hrequest hlog, hyields⟩

theorem Log.Brings.mono {table : String} {plan : Plan} {i : Nat} {part : ResultSet}
    (h : log.Brings table plan answers i part) (hlog : log <+: log') :
    log'.Brings table plan answers i part := by
  obtain ⟨n, reply, hanswered, hasks, hpart⟩ := h
  exact ⟨n, reply, hanswered, hasks.mono hlog, hpart⟩

end Mono

/-- What a failure of a command goes back to. -/
inductive Blames (settings : Settings) (c : Command) (log : Log) (answers : List (Nat × Answer)) :
    FailureCause → Prop where
  | aborted : Blames settings c log answers .aborted
  | rejected {n : Nat} {rejection : Rejection} (answered : (n, .reply (.error rejection)) ∈ answers) :
    Blames settings c log answers (.rejected rejection)
  | misshapen {n : Nat} {r : Request} {response : Response}
    (answered : (n, .reply (.ok response)) ∈ answers) (asked : log.requests[n]? = some r)
    (yields : ∀ result, ¬ r.kind.Yields response result) :
    Blames settings c log answers (.unexpectedResponse response.shape)
  | unplanned {text : String} {select : Select} {n : Nat} {schema : Schema} {fault : PlanFault}
    (query : c = .query text (.select select))
    (answered : (n, .reply (.ok (.table schema))) ∈ answers)
    (plan : schema.plan settings select = .error fault) :
    Blames settings c log answers (.unplannable fault)
  | misfit {schema : Schema} {plan : Plan} {n : Nat} {result : ResultSet} {row : Row}
    (plans : c.Plans settings schema plan) (answered : (n, .reply (.ok (.rows result))) ∈ answers)
    (mem : row ∈ result.rows) (length : row.length ≠ plan.columns.length) :
    Blames settings c log answers
      (.invalidData (.arityMismatch .row plan.columns.length row.length))

theorem Blames.mono {log log' : Log} {answers : List (Nat × Answer)} {cause : FailureCause}
    (h : Blames settings c log answers cause) (hlog : log <+: log') :
    Blames settings c log' answers cause := by
  cases h with
  | aborted => exact .aborted
  | rejected answered => exact .rejected answered
  | misshapen answered asked yields =>
    exact .misshapen answered (Log.request_mono asked hlog) yields
  | unplanned query answered plan => exact .unplanned query answered plan
  | misfit plans answered mem length => exact .misfit plans answered mem length

theorem Blames.ne_wrongShape {log : Log} {answers : List (Nat × Answer)} {cause : FailureCause}
    (h : Blames settings c log answers cause) : cause ≠ .wrongShape := by
  cases h <;> rintro ⟨⟩

namespace Turn

/-- What an answer has been to a command: the one that settled it at once, one of those that a SELECT
has gathered, or the last one, which failed the SELECT. -/
inductive Regards (settings : Settings) (c : Command) (requests : List Request)
    (answers : List (Nat × Answer)) (t : Turn (σ × Log) (Nat × τ)) (n : Nat) (a : Answer) : Prop where
  | ended {outcome : Outcome} (ends : c.Ends settings a outcome)
    (number : t.state.2.requests[n]? = some c.opening) (requests_eq : requests = [c.opening])
    (answers_eq : answers = [(n, a)]) (outcome_eq : t.outcome = some outcome)
  | gathered {schema : Schema} {plan : Plan} {m : Nat} {heard : List (Nat × ResultSet)}
    {past more : List (Nat × Answer)} (plans : c.Plans settings schema plan)
    (possible : Fanout.Possible plan m heard)
    (tells : Tells c schema plan m heard t.state.2 requests past) (answers_eq : answers = past ++ more)
    (mem : (n, a) ∈ past)
  | failed {schema : Schema} {plan : Plan} {m i : Nat} {heard : List (Nat × ResultSet)}
    {past : List (Nat × Answer)} {cause : FailureCause} (plans : c.Plans settings schema plan)
    (tells : Tells c schema plan m heard t.state.2 requests past) (flying : i < m)
    (asks : t.state.2.Asks c.table plan i n) (answers_eq : answers = past ++ [(n, a)])
    (fails : a.Fails plan cause) (outcome : t.outcome = some (.error cause))

/-- How a command has come to a response: by its first answer, or by the parts of a whole plan. -/
inductive Delivers (settings : Settings) (c : Command) (requests : List Request)
    (answers : List (Nat × Answer)) (t : Turn (σ × Log) (Nat × τ)) : Response → Prop where
  | ended {n : Nat} {a : Answer} {response : Response} (ends : c.Ends settings a (.ok response))
    (number : t.state.2.requests[n]? = some c.opening) (requests_eq : requests = [c.opening])
    (answers_eq : answers = [(n, a)]) : Delivers settings c requests answers t response
  | resolved {schema : Schema} {plan : Plan} {m : Nat} {heard : List (Nat × ResultSet)}
    (plans : c.Plans settings schema plan) (possible : Fanout.Possible plan m heard)
    (complete : heard.length = plan.pieces.length)
    (tells : Tells c schema plan m heard t.state.2 requests answers) :
    Delivers settings c requests answers t (.rows (Fanout.after plan m heard).result)

end Turn

namespace Turn.Course

variable {requests : List Request} {answers : List (Nat × Answer)} {t : Turn (σ × Log) (Nat × τ)}
  {n : Nat}

theorem regards (h : t.Course settings c requests answers) {a : Answer} (ha : (n, a) ∈ answers) :
    t.Regards settings c requests answers n a := by
  cases h with
  | unsent _ _ _ _ answers_eq | opened _ _ _ _ _ answers_eq =>
    rw [answers_eq] at ha
    cases ha
  | ended ends number requests_eq answers_eq outcome =>
    cases List.mem_singleton.mp (answers_eq ▸ ha)
    exact .ended ends number requests_eq answers_eq outcome
  | gathers plans at_ tells => exact .gathered plans at_.possible tells (List.append_nil _).symm ha
  | resolved plans possible _ tells =>
    exact .gathered plans possible tells (List.append_nil _).symm ha
  | failed plans possible tells flying asks answers_eq fails outcome =>
    have hmem := ha
    rw [answers_eq, List.mem_append, List.mem_singleton] at hmem
    rcases hmem with hmem | hmem
    · exact .gathered plans possible tells answers_eq hmem
    · cases hmem
      exact .failed plans tells flying asks answers_eq fails outcome

theorem delivers (h : t.Course settings c requests answers) {response : Response}
    (houtcome : t.outcome = some (.ok response)) :
    t.Delivers settings c requests answers response := by
  cases h with
  | unsent _ outcome | opened _ outcome | failed _ _ _ _ _ _ _ outcome =>
    rw [outcome] at houtcome
    cases houtcome
  | gathers _ at_ =>
    rw [at_.outcome] at houtcome
    cases houtcome
  | ended ends number requests_eq answers_eq outcome =>
    rw [outcome] at houtcome
    cases houtcome
    exact .ended ends number requests_eq answers_eq
  | resolved plans possible complete tells outcome =>
    rw [outcome] at houtcome
    cases houtcome
    exact .resolved plans possible complete tells

theorem requests_of_carries (h : t.Course settings c requests answers) {payload : Payload}
    (hcarries : c.Carries payload) : requests = [] ∨ requests = [⟨c.table, payload⟩] := by
  have hplans {schema : Schema} {plan : Plan} (hplans : c.Plans settings schema plan) : False := by
    obtain ⟨text, select, rfl, -⟩ := hplans.planned
    cases hcarries
  cases h with
  | unsent _ _ _ requests_eq => exact .inl requests_eq
  | opened _ _ _ _ requests_eq => exact .inr (hcarries.opening_eq ▸ requests_eq)
  | ended _ _ requests_eq => exact .inr (hcarries.opening_eq ▸ requests_eq)
  | gathers plans | resolved plans | failed plans => exact (hplans plans).elim

theorem requests_of_query (h : t.Course settings c requests answers) (hquery : c.kind = .query) :
    requests = [] ∨ ∃ pieces, requests = ⟨c.table, .describeTable⟩ :: pieces ∧
      (pieces ≠ [] → ∃ schema plan n rest, c.Plans settings schema plan ∧
        answers = (n, .reply (.ok (.table schema))) :: rest ∧
          pieces <+: plan.pieces.map (Piece.request c.table)) := by
  have hopening : c.opening = ⟨c.table, .describeTable⟩ := by
    cases c with
    | query => rfl
    | createTable | store | fetch | delete | listKeys | describeTable => cases hquery
  have htells {schema : Schema} {plan : Plan} {m : Nat} {heard : List (Nat × ResultSet)}
      {past more : List (Nat × Answer)} (hplans : c.Plans settings schema plan)
      (htells : Tells c schema plan m heard t.state.2 requests past) (hmore : answers = past ++ more) :
      ∃ pieces, requests = ⟨c.table, .describeTable⟩ :: pieces ∧
        (pieces ≠ [] → ∃ schema plan n rest, c.Plans settings schema plan ∧
          answers = (n, .reply (.ok (.table schema))) :: rest ∧
            pieces <+: plan.pieces.map (Piece.request c.table)) := by
    obtain ⟨n, rest, rfl, -⟩ := htells.answers
    refine ⟨_, hopening ▸ htells.requests, fun _ => ⟨schema, plan, n, rest ++ more, hplans, hmore, ?_⟩⟩
    exact (List.take_prefix m plan.pieces).map _
  cases h with
  | unsent _ _ _ requests_eq => exact .inl requests_eq
  | opened _ _ _ _ requests_eq => exact .inr ⟨[], hopening ▸ requests_eq, fun hne => absurd rfl hne⟩
  | ended _ _ requests_eq => exact .inr ⟨[], hopening ▸ requests_eq, fun hne => absurd rfl hne⟩
  | gathers plans _ tells => exact .inr (htells plans tells (List.append_nil _).symm)
  | resolved plans _ _ tells => exact .inr (htells plans tells (List.append_nil _).symm)
  | failed plans _ tells _ _ answers_eq => exact .inr (htells plans tells answers_eq)

theorem outcome_of_rejected (h : t.Course settings c requests answers) {rejection : Rejection}
    (ha : (n, .reply (.error rejection)) ∈ answers) :
    t.outcome = some (.error (.rejected rejection)) := by
  cases h.regards ha with
  | ended ends _ _ _ outcome =>
    cases ends
    exact outcome
  | gathered plans _ tells _ mem =>
    obtain ⟨r, response, result, hresponse, -⟩ := tells.fits plans mem
    cases hresponse
  | failed _ _ _ _ _ fails outcome =>
    cases fails
    exact outcome

theorem outcome_of_misshapen (h : t.Course settings c requests answers) {r : Request}
    {response : Response} (ha : (n, .reply (.ok response)) ∈ answers)
    (hr : t.state.2.requests[n]? = some r) (hyields : ∀ result, ¬ r.kind.Yields response result) :
    t.outcome = some (.error (.unexpectedResponse response.shape)) := by
  cases h.regards ha with
  | ended ends number _ _ outcome =>
    rw [hr] at number
    cases number
    cases ends with
    | misshapen => exact outcome
    | yields carries yields => exact absurd (carries.kind_eq.symm ▸ yields) (hyields _)
    | described | unplanned | nothing => exact absurd (.shaped rfl) (hyields _)
  | gathered plans _ tells _ mem =>
    obtain ⟨r', response', result, hresponse, hr', hfits⟩ := tells.fits plans mem
    cases hresponse
    rw [hr] at hr'
    cases hr'
    exact absurd hfits (hyields result)
  | failed _ _ _ asks _ fails outcome =>
    obtain ⟨piece, -, hrequest⟩ := asks
    rw [hr] at hrequest
    cases hrequest
    cases Fanout.part_eq_error_iff.mp fails with
    | table schema => exact outcome
    | misfit => exact absurd (.shaped rfl) (hyields _)

theorem outcome_of_ends (h : t.Course settings c requests answers) {a : Answer}
    {rest : List (Nat × Answer)} {outcome : Outcome} (ha : answers = (n, a) :: rest)
    (hends : c.Ends settings a outcome) : t.outcome = some outcome := by
  cases h.regards (ha ▸ List.mem_cons_self) with
  | ended ends _ _ _ outcome_eq => rw [outcome_eq, hends.unique ends]
  | gathered plans _ tells answers_eq | failed plans tells _ _ answers_eq =>
    cases tells.answer_eq (answers_eq.symm.trans ha)
    exact absurd plans hends.not_plans

/-- A failure goes back to an answer, unless the transport broke down. -/
theorem blames (h : t.Course settings c requests answers) {cause : FailureCause}
    (houtcome : t.outcome = some (.error cause)) : Blames settings c t.state.2 answers cause := by
  cases h with
  | unsent _ outcome | opened _ outcome =>
    rw [outcome] at houtcome
    cases houtcome
  | gathers _ at_ =>
    rw [at_.outcome] at houtcome
    cases houtcome
  | resolved _ _ _ _ outcome =>
    rw [outcome] at houtcome
    cases houtcome
  | ended ends number _ answers_eq outcome_eq =>
    rw [outcome_eq, Option.some.injEq] at houtcome
    subst houtcome
    have hanswered := answers_eq ▸ List.mem_singleton_self _
    cases ends with
    | broken => exact .aborted
    | rejected => exact .rejected hanswered
    | misshapen yields => exact .misshapen hanswered number yields
    | unplanned text plan => exact .unplanned rfl hanswered plan
  | @failed schema plan m i n heard past a cause plans _ _ _ asks answers_eq fails outcome =>
    rw [outcome, Option.some.injEq, Except.error.injEq] at houtcome
    subst houtcome
    have hanswered : (n, a) ∈ answers :=
      answers_eq ▸ List.mem_append_right _ (List.mem_singleton_self _)
    cases a with
    | silent => cases fails
    | broken =>
      cases fails
      exact .aborted
    | reply reply =>
      cases Fanout.part_eq_error_iff.mp fails with
      | rejected => exact .rejected hanswered
      | table schema =>
        obtain ⟨piece, -, hrequest⟩ := asks
        refine .misshapen hanswered hrequest (CommandKind.not_yields ?_ ?_)
        · rintro ⟨⟩
        · rintro - ⟨⟩
      | misfit rows _ length =>
        exact .misfit plans hanswered (rows ▸ List.mem_append_right _ List.mem_cons_self) length

/-- A response comes of answers that fit all requests. -/
theorem complete (h : t.Course settings c requests answers) {response : Response}
    (houtcome : t.outcome = some (.ok response)) :
    response.shape = c.kind.shape ∧ requests ≠ [] ∧
      ∀ r ∈ requests, ∃ a ∈ answers, t.state.2.Fits r a := by
  cases h.delivers houtcome with
  | ended ends number requests_eq answers_eq =>
    refine ⟨ends.shape, by simp [requests_eq], fun r hr => ?_⟩
    rw [requests_eq, List.mem_singleton] at hr
    rw [hr]
    refine ⟨_, answers_eq ▸ List.mem_singleton_self _, ?_⟩
    obtain ⟨reply, result, rfl, hyields⟩ := ends.exists_yields
    exact ⟨reply, result, rfl, number, hyields⟩
  | resolved plans possible complete tells =>
    obtain ⟨text, select, rfl, -⟩ := plans.planned
    exact ⟨rfl, by simp [tells.requests], fun r hr => tells.complete plans possible complete hr⟩

/-- A SELECT that has sent pieces resolves with the merged parts of their answers. -/
theorem merges (h : t.Course settings c requests answers) {schema : Schema} {plan : Plan}
    {rest : List (Nat × Answer)} {response : Response} (hplans : c.Plans settings schema plan)
    (ha : answers = (n, .reply (.ok (.table schema))) :: rest)
    (houtcome : t.outcome = some (.ok response)) :
    ∃ parts : Nat → ResultSet,
      response = .rows (plan.merge ((List.range plan.pieces.length).map parts)) ∧
        ∀ i < plan.pieces.length, t.state.2.Brings c.table plan answers i (parts i) := by
  cases h.delivers houtcome with
  | ended ends _ _ answers_eq =>
    rw [answers_eq] at ha
    cases ha
    exact absurd hplans ends.not_plans
  | @resolved schema' plan' m heard plans possible complete tells =>
    obtain ⟨n', rest', hanswers, -, hrest⟩ := tells.answers
    obtain ⟨rfl, rfl⟩ : schema' = schema ∧ rest' = rest := by
      rw [ha] at hanswers
      cases hanswers
      exact ⟨rfl, rfl⟩
    obtain rfl := hplans.unique plans
    obtain ⟨parts, hparts⟩ := possible.exists_parts
    refine ⟨parts, by rw [possible.result_eq complete hparts], fun i hi => ?_⟩
    have hheard : i ∈ heard.map (·.1) :=
      (possible.heard_perm complete).2.mem_iff.mpr (List.mem_range.mpr hi)
    obtain ⟨⟨j, p⟩, hp, rfl⟩ := List.mem_map.mp hheard
    obtain ⟨⟨k, a⟩, hmem, ⟨reply, rfl, hpart⟩, hasks⟩ := exists_mem_of_forall₂ hrest hp
    rw [← hparts _ hp]
    exact ⟨k, reply, ha ▸ List.mem_cons_of_mem _ hmem, hasks, Fanout.part_eq_ok_iff.mp hpart⟩

theorem asked (h : t.Course settings c requests answers) {a : Nat × Answer} (ha : a ∈ answers) :
    ∃ r ∈ requests, t.state.2.requests[a.1]? = some r := by
  have hpiece {schema : Schema} {plan : Plan} {m i k : Nat} {heard : List (Nat × ResultSet)}
      {past : List (Nat × Answer)}
      (htells : Tells c schema plan m heard t.state.2 requests past)
      (hasks : t.state.2.Asks c.table plan i k) (hi : i < m) :
      ∃ r ∈ requests, t.state.2.requests[k]? = some r := by
    obtain ⟨piece, hpiece, hrequest⟩ := hasks
    refine ⟨_, ?_, hrequest⟩
    rw [htells.requests]
    refine List.mem_cons_of_mem _ (List.mem_map_of_mem ?_)
    exact List.mem_of_getElem? ((List.getElem?_take_of_lt hi).trans hpiece)
  obtain ⟨k, a⟩ := a
  cases h.regards ha with
  | ended _ number requests_eq =>
    exact ⟨c.opening, requests_eq ▸ List.mem_singleton_self _, number⟩
  | gathered _ possible tells _ mem =>
    obtain ⟨n, rest, rfl, hnumber, hrest⟩ := tells.answers
    rcases List.mem_cons.mp mem with hmem | hmem
    · cases hmem
      exact ⟨c.opening, by simp [tells.requests], hnumber⟩
    · obtain ⟨p, hp, -, hasks⟩ := exists_mem_of_forall₂ hrest.flip hmem
      exact hpiece tells hasks (possible.sent p.1 (List.mem_map_of_mem hp))
  | failed _ tells flying asks => exact hpiece tells asks flying

theorem requests_ne_nil (h : t.Course settings c requests answers)
    (hstage : t.outcome = none → t.stage ≠ .unsent) : requests ≠ [] := by
  cases h with
  | unsent stage outcome => exact absurd stage (hstage outcome)
  | opened _ _ _ _ requests_eq => simp [requests_eq]
  | ended _ _ requests_eq => simp [requests_eq]
  | gathers _ _ tells => simp [tells.requests]
  | resolved _ _ _ tells => simp [tells.requests]
  | failed _ _ tells => simp [tells.requests]

end Turn.Course

end Timeslice
