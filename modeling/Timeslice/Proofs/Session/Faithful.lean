import Timeslice.Proofs.Session.Replies

/-!
# Commands are faithful to their replies

In every run of a session over any transport, each command sends what it has to send and stands as its
own replies say, whether it has been submitted typed or not.
-/

namespace Timeslice

variable {σ τ : Type} {T : Transport σ τ} {settings : Settings} {c : Command}

/-- How an outcome lets a command stand that nobody has cancelled. -/
def Command.verdict (c : Command) : Outcome → Standing
  | .ok response => .resolved response
  | .error cause => .failed (c.failure cause)

theorem Command.conclude_eq_verdict {outcome : Outcome}
    (h : ∀ response, outcome = .ok response → response.shape = c.kind.shape) (typed : Bool) :
    c.conclude typed outcome = c.verdict outcome := by
  cases outcome with
  | error cause => rfl
  | ok response => simp [conclude, verdict, h response rfl]

/-- A command that stands like this has been faithful to its replies: `log` is the log of the
transport, and `own` is what the command's own task has added to it. -/
structure Faithful (settings : Settings) (c : Command) (log own : Log) (standing : Standing) :
    Prop where
  single : ∀ payload, c.Carries payload →
    own.requests = [] ∨ own.requests = [⟨c.table, payload⟩]
  /-- A query asks for the schema of its table first. It sends more only if it is a SELECT that has a
  plan with pieces for the schema it is given, and then pieces of that plan in order. -/
  opening : c.kind = .query → own.requests = [] ∨
    ∃ pieces, own.requests = ⟨c.table, .describeTable⟩ :: pieces ∧
      (pieces ≠ [] → ∃ schema plan n rest, c.Plans settings schema plan ∧
        own.answers = (n, .reply (.ok (.table schema))) :: rest ∧
          pieces <+: plan.pieces.map (Piece.request c.table))
  asked : ∀ a ∈ own.answers, ∃ r ∈ own.requests, log.requests[a.1]? = some r
  rejected : ∀ n rejection, (n, .reply (.error rejection)) ∈ own.answers →
    standing = .cancelled ∨ standing = .failed ⟨c.table, c.kind, .rejected rejection⟩ ∧
      (Failure.mk c.table c.kind (.rejected rejection)).kind = rejection.kind ∧
      (Failure.mk c.table c.kind (.rejected rejection)).message =
        c.kind.text ++ " on '" ++ c.table ++ "' " ++ ("failed: " ++ rejection.message)
  misshapen : ∀ n r response, (n, .reply (.ok response)) ∈ own.answers →
    log.requests[n]? = some r → (∀ result, ¬ r.kind.Yields response result) →
      standing = .cancelled ∨
        standing = .failed ⟨c.table, c.kind, .unexpectedResponse response.shape⟩ ∧
        (Failure.mk c.table c.kind (.unexpectedResponse response.shape)).kind = .transport
  /-- The first answer decides, unless it is a schema for which a SELECT has pieces to send. -/
  first : ∀ n a rest outcome, own.answers = (n, a) :: rest → c.Ends settings a outcome →
    standing = .cancelled ∨ standing = c.verdict outcome
  /-- A SELECT that has sent its pieces resolves with the parts that their answers bring, and an empty
  answer brings an empty part. -/
  merged : ∀ schema plan n rest response, c.Plans settings schema plan →
    own.answers = (n, .reply (.ok (.table schema))) :: rest → standing = .resolved response →
      ∃ parts : Nat → ResultSet,
        response = .rows (plan.merge ((List.range plan.pieces.length).map parts)) ∧
          ∀ i < plan.pieces.length, log.Brings c.table plan own.answers i (parts i)
  resolved : ∀ response, standing = .resolved response →
    response.shape = c.kind.shape ∧ own.requests ≠ [] ∧
      ∀ r ∈ own.requests, ∃ a ∈ own.answers, log.Fits r a
  failed : ∀ failure, standing = .failed failure →
    failure.table = c.table ∧ failure.command = c.kind ∧
      Blames settings c log own.answers failure.cause
  shaped : ∀ failure, standing = .failed failure → failure.cause ≠ .wrongShape

namespace Submission.Stands

variable {requests : List Request} {answers : List (Nat × Answer)} {state : σ × Log}
  {sub : Submission (Nat × τ)}

theorem exists_course (h : sub.Stands settings requests answers state) :
    ∃ t : Turn (σ × Log) (Nat × τ), t.state.2 <+: state.2 ∧
      t.Course settings sub.command requests answers ∧
      (sub.standing = .cancelled ∨
        t.outcome = none ∧
          (sub.standing = .pending ∨ sub.standing = .failed (sub.command.failure .aborted)) ∨
        ∃ outcome, t.outcome = some outcome ∧ sub.standing = sub.command.verdict outcome) := by
  cases h with
  | goesOn had course standing =>
    refine ⟨_, List.prefix_refl _, course, ?_⟩
    rcases standing with hpending | hcancelled
    · exact .inr (.inl ⟨rfl, .inl hpending⟩)
    · exact .inl hcancelled
  | @ended t gone log course standing =>
    refine ⟨t, log, course, ?_⟩
    rcases standing with hcancelled | ⟨houtcome, haborted⟩ | ⟨outcome, houtcome, hstanding⟩
    · exact .inl hcancelled
    · exact .inr (.inl ⟨houtcome, .inr haborted⟩)
    · refine .inr (.inr ⟨outcome, houtcome, ?_⟩)
      rw [hstanding]
      refine Command.conclude_eq_verdict (fun response hok => ?_) sub.typed
      exact (course.complete (houtcome.trans (congrArg some hok))).1

theorem exists_verdict (h : sub.Stands settings requests answers state) :
    ∃ t : Turn (σ × Log) (Nat × τ), t.state.2 <+: state.2 ∧
      t.Course settings sub.command requests answers ∧
      (∀ outcome, t.outcome = some outcome →
        sub.standing = .cancelled ∨ sub.standing = sub.command.verdict outcome) ∧
      (∀ response, sub.standing = .resolved response → t.outcome = some (.ok response)) ∧
      ∀ failure, sub.standing = .failed failure →
        failure = sub.command.failure .aborted ∨
          ∃ cause, failure = sub.command.failure cause ∧ t.outcome = some (.error cause) := by
  obtain ⟨t, hlog, hcourse, hstanding⟩ := h.exists_course
  refine ⟨t, hlog, hcourse, fun outcome houtcome => ?_, fun response hsub => ?_,
    fun failure hsub => ?_⟩
  · rcases hstanding with hcancelled | ⟨hnone, -⟩ | ⟨outcome', houtcome', hverdict⟩
    · exact .inl hcancelled
    · rw [houtcome] at hnone
      cases hnone
    · rw [houtcome] at houtcome'
      cases houtcome'
      exact .inr hverdict
  · rw [hsub] at hstanding
    rcases hstanding with hcancelled | ⟨-, hpending | haborted⟩ | ⟨outcome, houtcome, hverdict⟩
    · cases hcancelled
    · cases hpending
    · cases haborted
    · cases outcome <;> cases hverdict
      exact houtcome
  · rw [hsub] at hstanding
    rcases hstanding with hcancelled | ⟨-, hpending | haborted⟩ | ⟨outcome, houtcome, hverdict⟩
    · cases hcancelled
    · cases hpending
    · cases haborted
      exact .inl rfl
    · cases outcome <;> cases hverdict
      exact .inr ⟨_, rfl, houtcome⟩

/-- A submission stands faithfully to its part of the log. -/
theorem faithful {log own : Log} {state : σ}
    (h : sub.Stands settings own.requests own.answers (state, log)) :
    Faithful settings sub.command log own sub.standing := by
  obtain ⟨t, hlog, hcourse, hverdict, hresolved, hfails⟩ := h.exists_verdict
  have hfailed {failure : Failure} (hsub : sub.standing = .failed failure) :
      ∃ cause, failure = sub.command.failure cause ∧
        Blames settings sub.command log own.answers cause := by
    rcases hfails failure hsub with rfl | ⟨cause, rfl, houtcome⟩
    · exact ⟨_, rfl, .aborted⟩
    · exact ⟨cause, rfl, (hcourse.blames houtcome).mono hlog⟩
  exact
    { single := fun payload => hcourse.requests_of_carries
      opening := hcourse.requests_of_query
      asked := fun a ha => by
        obtain ⟨r, hr, hrequest⟩ := hcourse.asked ha
        exact ⟨r, hr, Log.request_mono hrequest hlog⟩
      rejected := fun n rejection ha =>
        (hverdict _ (hcourse.outcome_of_rejected ha)).imp_right fun hsub => ⟨hsub, rfl, rfl⟩
      misshapen := fun n r response ha hr hyields => by
        obtain ⟨r', -, hrequest⟩ := hcourse.asked ha
        obtain rfl : r' = r :=
          Option.some.inj ((Log.request_mono hrequest hlog).symm.trans hr)
        exact (hverdict _ (hcourse.outcome_of_misshapen ha hrequest hyields)).imp_right
          fun hsub => ⟨hsub, rfl⟩
      first := fun n a rest outcome ha hends => hverdict _ (hcourse.outcome_of_ends ha hends)
      merged := fun schema plan n rest response hplans ha hsub => by
        obtain ⟨parts, hresponse, hbrings⟩ := hcourse.merges hplans ha (hresolved _ hsub)
        exact ⟨parts, hresponse, fun i hi => (hbrings i hi).mono hlog⟩
      resolved := fun response hsub => by
        obtain ⟨hshape, hne, hfits⟩ := hcourse.complete (hresolved _ hsub)
        refine ⟨hshape, hne, fun r hr => ?_⟩
        obtain ⟨a, ha, hfit⟩ := hfits r hr
        exact ⟨a, ha, hfit.mono hlog⟩
      failed := fun failure hsub => by
        obtain ⟨cause, rfl, hblames⟩ := hfailed hsub
        exact ⟨rfl, rfl, hblames⟩
      shaped := fun failure hsub => by
        obtain ⟨cause, rfl, hblames⟩ := hfailed hsub
        exact hblames.ne_wrongShape }

end Submission.Stands

namespace Turn

variable {t : Turn σ τ} {slot : Nat}

theorem stage_advance_ne_unsent (h : t.stage ≠ .unsent) (slot : Nat)
    (reply : Except Rejection Response) : (t.advance settings c slot reply).stage ≠ .unsent := by
  unfold advance
  split
  · next stage hgoes =>
    rcases Command.receive_goesOn hgoes with ⟨-, -, plan, rfl⟩ | ⟨f, f', -, rfl, -⟩ <;> rintro ⟨⟩
  · exact h

theorem stage_hear_ne_unsent (h : t.stage ≠ .unsent) (slot : Nat) (taken : τ) :
    (t.hear T settings c slot taken).stage ≠ .unsent := by
  unfold hear
  rcases T.answer t.state taken with ⟨state, answer⟩
  cases answer with
  | reply r => exact stage_advance_ne_unsent (t := { t with state := state }) h slot r
  | silent | broken => exact h

theorem stage_send_ne_unsent (h : t.stage ≠ .unsent) (slot : Nat) (r : Request) :
    (t.send T settings c slot r).stage ≠ .unsent := by
  unfold send
  rcases T.arrive t.state r with ⟨state, intake⟩
  dsimp only
  split_ifs
  · exact stage_hear_ne_unsent (t := { t with state := state }) h slot intake.taken
  · exact h

end Turn

theorem Task.stage_run_ne_unsent (task : Task τ) (state : σ)
    (houtcome : (task.run T settings c state).outcome = none) :
    (task.run T settings c state).stage ≠ .unsent := by
  set woken := task.woken.foldl (Turn.wake T settings c) ⟨state, task.stage, task.flights, [], none⟩
    with hwoken
  have hopened : (woken.openUp T settings c).outcome = none →
      (woken.openUp T settings c).stage ≠ .unsent := by
    by_cases hfresh : woken.outcome = none ∧ woken.stage = .unsent
    · simp only [Turn.openUp, hfresh.1, hfresh.2]
      exact fun _ => Turn.stage_send_ne_unsent
        (t := { woken with stage := .opened, outcome := none }) (by rintro ⟨⟩) 0 _
    · rw [Turn.openUp_eq_self fun hnone hstage => hfresh ⟨hnone, hstage⟩]
      exact fun hnone hstage => hfresh ⟨hnone, hstage⟩
  have hlaunched : ∀ n, (Turn.launch T settings c n (woken.openUp T settings c)).outcome = none →
      (Turn.launch T settings c n (woken.openUp T settings c)).stage ≠ .unsent :=
    Turn.launch_induction (P := fun t => t.outcome = none → t.stage ≠ .unsent)
    (fun t _ slot _ f' _ _ _ _ _ =>
      Turn.stage_send_ne_unsent (t := { t with stage := .gathering f' }) (by rintro ⟨⟩) slot _)
    hopened
  have hrun : task.run T settings c state =
      (Turn.launch T settings c (woken.openUp T settings c).unsent
        (woken.openUp T settings c)).close T := rfl
  rw [hrun] at houtcome ⊢
  have hnone : (Turn.launch T settings c (woken.openUp T settings c).unsent
      (woken.openUp T settings c)).outcome = none := by
    by_contra hsome
    rw [Turn.close, if_pos (Option.ne_none_iff_isSome.mp hsome)] at houtcome
    exact hsome houtcome
  rw [Turn.close_eq_self hnone]
  exact hlaunched _ hnone

namespace World

structure IsFaithful (T : Transport σ τ) (settings : Settings) (state : σ) (acts : List (Act σ)) :
    Prop where
  faithful : ∀ ticket sub,
    ((start settings (state, [])).record T acts).submissions[ticket]? = some sub →
      Faithful settings sub.command ((start settings (state, [])).record T acts).state.2
        ((start settings (state, [])).own T ticket acts) sub.standing
  sends : ∀ past now ticket rest sub, acts = past ++ .turn now ticket :: rest →
    ((start settings (state, [])).record T past).submissions[ticket]? = some sub →
      sub.standing = .pending → ((start settings (state, [])).own T ticket acts).requests ≠ []
  unlogged : ((start settings (state, [])).record T acts).unlogged =
    (start settings state : World σ τ).run T acts
  /-- A run that is the same but for which commands are submitted typed leads to the same state of the
  transport and the same standings, and shows the same on the way. -/
  typing : ∀ acts' : List (Act σ), acts'.map Act.untyped = acts.map Act.untyped →
    ((start settings state : World σ τ).run T acts').state = ((start settings state).run T acts).state ∧
      (∀ ticket, ((start settings state : World σ τ).run T acts').standing ticket =
        ((start settings state).run T acts).standing ticket) ∧
      (start settings state : World σ τ).observed T acts' = (start settings state).observed T acts

variable {state : σ} {acts past : List (Act σ)} {ticket now : Nat} {sub : Submission (Nat × τ)}

theorem state_turn (w : World σ τ) {sub : Submission τ} {task : Task τ}
    (hsub : w.submissions[ticket]? = some sub) (htask : sub.task = some task)
    (hpending : sub.standing = .pending) :
    (w.perform T (.turn now ticket)).state = (task.run T w.settings sub.command w.state).state := by
  set w₀ : World σ τ := { w with ready := w.ready.erase ticket }
  have hsub₀ : w₀.submissions[ticket]? = some sub := hsub
  rw [perform, turn_eq_absorb hsub₀ htask hpending]
  exact (absorb_spec now hsub₀ _).1

theorem requests_of_turn
    (hsub : ((start settings (state, [])).record T past).submissions[ticket]? = some sub)
    (hpending : sub.standing = .pending) :
    ((start settings (state, [])).own T ticket (past ++ [.turn now ticket])).requests ≠ [] := by
  set w := (start settings (state, [])).record T past
  have hsound : w.IsSound := (isSound_start settings (state, [])).run _
  obtain ⟨task, htask⟩ := Option.isSome_iff_exists.mp ((hsound ticket sub hsub).tasked hpending)
  have hstands := (standsBy_record T settings state ticket past).stands sub hsub
  obtain ⟨new, hnew, hcourse⟩ := Task.course_run T (hstands.course_of_task htask).1
  have hgain : w.gain T (.turn now ticket) = new := by
    refine gain_eq ?_
    rw [Act.logged, state_turn w hsub htask hpending]
    exact hnew
  have howner : (Act.turn now ticket : Act σ).owner = some ticket := rfl
  rw [own_concat, if_pos howner, Log.requests_append, hgain]
  exact hcourse.requests_ne_nil (Task.stage_run_ne_unsent task _)

/-- Commands are faithful in every run over any transport. -/
theorem commands_faithful (T : Transport σ τ) (settings : Settings) (state : σ)
    (acts : List (Act σ)) : IsFaithful T settings state acts where
  faithful ticket sub hsub := by
    have hstands := (standsBy_record T settings state ticket acts).stands sub hsub
    rw [settings_record] at hstands
    exact hstands.faithful
  sends := by
    rintro past now ticket rest sub rfl hsub hpending
    rw [← List.singleton_append, ← List.append_assoc, own_append, Log.requests_append]
    intro hnil
    exact requests_of_turn hsub hpending (List.append_eq_nil_iff.mp hnil).1
  unlogged := unlogged_record _ acts
  typing acts' hacts := by
    have htidy : (start settings state : World σ τ).Tasked Task.Tidy :=
      (lasts_tidy T).run settings state []
    obtain ⟨hrun, hobserved⟩ := untyped_run T htidy acts
    obtain ⟨hrun', hobserved'⟩ := untyped_run T htidy acts'
    rw [hacts, ← hrun] at hrun'
    rw [hacts, hobserved] at hobserved'
    have hstate := congrArg World.state hrun'
    refine ⟨hstate, fun ticket => ?_, hobserved'.symm⟩
    rw [← standing_untyped, hrun', standing_untyped]

end World

end Timeslice
