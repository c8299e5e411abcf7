import Mathlib.Data.List.Induction
import Timeslice.Proofs.Session.Accounting
import Timeslice.Proofs.Session.Following
import Timeslice.Proofs.Session.Unrolling

/-!
# What a settled command leaves behind

A command that is settled while its task is still there has the task in the queue, and all that the
task does from then on is to drop its requests. So nothing of the command is in flight any more once
the tasks that can run have had their turns.
-/

namespace Timeslice

variable {σ τ : Type} {T : Transport σ τ}

def Submission.flights (sub : Submission τ) : List (Flight τ) :=
  sub.task.elim [] (·.flights)

namespace World

section Settled

variable {w init : World σ τ} {act : Act σ} {acts past rest : List (Act σ)} {ticket : Nat}
  {sub : Submission τ}

/-- The act comes up in a run from `init`, in this world. -/
def Meets (T : Transport σ τ) (init : World σ τ) (acts : List (Act σ)) (w : World σ τ)
    (act : Act σ) : Prop :=
  ∃ past rest, acts = past ++ act :: rest ∧ init.run T past = w

theorem Meets.mem (h : Meets T init acts w act) : act ∈ acts := by
  obtain ⟨past, rest, rfl, -⟩ := h
  exact List.mem_append_right past List.mem_cons_self

theorem Meets.append (h : Meets T init (past ++ rest) w act) :
    Meets T init past w act ∨ Meets T (init.run T past) rest w act := by
  obtain ⟨before, after, heq, rfl⟩ := h
  rcases List.append_eq_append_iff.mp heq with ⟨mid, rfl, hrest⟩ | ⟨mid, rfl, hlater⟩
  · exact .inr ⟨mid, after, hrest, (run_append past mid).symm⟩
  · cases mid with
    | nil => exact .inr ⟨[], after, hlater.symm, by rw [List.append_nil]; rfl⟩
    | cons other mid =>
      obtain ⟨rfl, rfl⟩ := List.cons.inj hlater
      exact .inl ⟨before, mid, rfl, rfl⟩

theorem exists_of_settled (h : w.standing ticket ≠ .pending) :
    ∃ sub, w.submissions[ticket]? = some sub ∧ sub.standing ≠ .pending := by
  cases hsub : w.submissions[ticket]? with
  | none =>
    rw [standing, hsub] at h
    exact absurd rfl h
  | some sub => exact ⟨sub, rfl, by rwa [standing_eq hsub] at h⟩

theorem Meets.standing_eq (h : Meets T init acts w act) (hsettled : init.standing ticket ≠ .pending) :
    w.standing ticket = init.standing ticket := by
  obtain ⟨past, rest, -, rfl⟩ := h
  obtain ⟨sub, hsub, hne⟩ := exists_of_settled hsettled
  obtain ⟨sub', hsub', -, hstanding⟩ := exists_submission_run (T := T) hsub past
  rw [World.standing_eq hsub', World.standing_eq hsub, hstanding hne]

theorem state_perform_of_settled (hsettled : w.standing ticket ≠ .pending) (hact : act.IsSerial)
    (howner : act.owner = some ticket) :
    ∃ flights, (w.perform T act).state = Turn.abandonAll T w.state flights := by
  obtain ⟨sub, hsub, hne⟩ := exists_of_settled hsettled
  cases moves_perform T act hsub with
  | rests _ state => exact ⟨[], state howner⟩
  | runs _ _ _ pending => exact absurd (pending hact) hne
  | drops task _ _ state => exact ⟨task.flights, state⟩
  | wakes _ _ _ foreign =>
    rw [foreign.1] at howner
    cases howner
  | cancels _ owner =>
    rw [owner] at howner
    cases howner

theorem state_enqueue (w : World σ τ) (ticket : Nat) : (w.enqueue ticket).state = w.state := by
  unfold enqueue
  split_ifs <;> rfl

theorem state_perform_of_none (hnone : w.submissions[ticket]? = none)
    (howner : act.owner = some ticket) : (w.perform T act).state = w.state := by
  cases act with
  | turn now other =>
    cases howner
    simp only [perform, turn, hnone]
  | race now other =>
    cases howner
    simp only [perform, race, hnone]
  | tearDown other =>
    cases howner
    simp only [perform, tearDown, hnone]
  | submit | poll | wait | register | release | notify | drift | cancel | expire => cases howner

theorem state_perform_of_owner_eq_none (howner : act.owner = none) (hdrift : ∀ f, act ≠ .drift f) :
    (w.perform T act).state = w.state := by
  cases act with
  | turn | race | tearDown => cases howner
  | drift f => exact absurd rfl (hdrift f)
  | submit | poll | wait | register | release => rfl
  | notify n =>
    rw [perform, notify]
    split <;> rfl
  | cancel other =>
    rw [perform, cancel]
    split
    · rfl
    · split_ifs
      · exact state_enqueue _ other
      · rfl
  | expire timer =>
    rw [perform, expire]
    split
    · rfl
    · split
      · rfl
      · exact state_enqueue _ timer.ticket

def Idle (w : World σ τ) (ticket : Nat) : Prop :=
  ∀ sub, w.submissions[ticket]? = some sub → sub.flights = []

theorem Idle.perform (h : w.Idle ticket)
    (hact : act.owner = some ticket → act.IsSerial ∧ w.standing ticket ≠ .pending) :
    (w.perform T act).Idle ticket ∧
      (act.owner = some ticket → (w.perform T act).state = w.state) := by
  cases hsub : w.submissions[ticket]? with
  | none =>
    refine ⟨fun sub hfresh => ?_, fun howner => absurd ?_ (hact howner).2⟩
    · rw [Submission.flights, (fresh_perform hsub hfresh).2]
      rfl
    · rw [World.standing, hsub]
      rfl
  | some sub =>
    have hidle := h sub hsub
    have hsame {sub' : Submission τ} (hsub' : (w.perform T act).submissions[ticket]? = some sub')
        (hflights : sub'.flights = []) : (w.perform T act).Idle ticket := by
      intro other hother
      obtain rfl := Option.some.inj (hsub'.symm.trans hother)
      exact hflights
    cases moves_perform T act hsub with
    | rests submission state => exact ⟨hsame submission hidle, state⟩
    | runs _ _ owner pending =>
      obtain ⟨hserial, hsettled⟩ := hact owner
      rw [World.standing_eq hsub] at hsettled
      exact absurd (pending hserial) hsettled
    | drops task had owner state submission =>
      refine ⟨hsame submission rfl, fun _ => ?_⟩
      rw [Submission.flights, had] at hidle
      rw [state, show task.flights = [] from hidle]
      rfl
    | wakes task slot had foreign _ submission =>
      rw [Submission.flights, had] at hidle
      refine ⟨hsame submission hidle, fun howner => ?_⟩
      rw [foreign.1] at howner
      cases howner
    | cancels _ owner _ _ submission =>
      refine ⟨hsame submission hidle, fun howner => ?_⟩
      rw [owner] at howner
      cases howner

theorem idle_start (settings : Settings) (state : σ) (ticket : Nat) :
    (start settings state : World σ τ).Idle ticket := by
  intro sub hsub
  simp [start] at hsub

theorem Idle.run (h : w.Idle ticket) (hacts : ∀ act ∈ acts, act.owner ≠ some ticket) :
    (w.run T acts).Idle ticket :=
  run_induction (P := fun w => w.Idle ticket) h fun _ act hact hw =>
    (hw.perform fun howner => absurd howner (hacts act hact)).1

/-- A task that has had no turn before its command is settled never reaches the transport. -/
theorem Idle.state_perform (h : w.Idle ticket) (hsettled : w.standing ticket ≠ .pending)
    (hserial : ∀ act ∈ acts, act.IsSerial) {w' : World σ τ} (hmeets : Meets T w acts w' act)
    (howner : act.owner = some ticket) : (w'.perform T act).state = w'.state := by
  have hmem := hmeets.mem
  have hstanding := hmeets.standing_eq hsettled
  obtain ⟨past, rest, rfl, rfl⟩ := hmeets
  have hidle : (w.run T past).Idle ticket ∧ (w.run T past).standing ticket ≠ .pending := by
    clear hstanding
    refine run_induction (P := fun w => w.Idle ticket ∧ w.standing ticket ≠ .pending) ⟨h, hsettled⟩
      fun w act hact hw => ⟨(hw.1.perform fun _ => ⟨?_, hw.2⟩).1, ?_⟩
    · exact hserial act (List.mem_append_left _ hact)
    · obtain ⟨sub, hsub, hne⟩ := exists_of_settled hw.2
      obtain ⟨sub', hsub', hfollows⟩ := (moves_perform T act hsub).exists_follows
      rw [World.standing_eq hsub', hfollows.standing hne]
      exact hne
  exact (hidle.1.perform fun _ => ⟨hserial act hmem, hidle.2⟩).2 howner

end Settled

section Logged

variable {w : World (σ × Log) (Nat × τ)} {ticket n : Nat} {sub : Submission (Nat × τ)} {act : Act σ}

def record (T : Transport σ τ) (w : World (σ × Log) (Nat × τ)) (acts : List (Act σ)) :
    World (σ × Log) (Nat × τ) :=
  w.run T.logged (acts.map Act.logged)

theorem record_append (past rest : List (Act σ)) :
    w.record T (past ++ rest) = (w.record T past).record T rest := by
  rw [record, List.map_append, run_append]
  rfl

theorem unlogged_record (w : World (σ × Log) (Nat × τ)) (acts : List (Act σ)) :
    (w.record T acts).unlogged = w.unlogged.run T acts :=
  unlogged_run T w acts

theorem owner_logged (act : Act σ) : act.logged.owner = act.owner := by
  cases act <;> rfl

theorem isSerial_logged : act.logged.IsSerial ↔ act.IsSerial := by
  cases act <;> rfl

theorem log_run (T : Transport σ τ) (settings : Settings) (c : Command) (s : σ × Log)
    (task : Task (Nat × τ)) : s.2 <+: (task.run T.logged settings c s).state.2 := by
  refine Task.run_induction (P := fun t : Turn (σ × Log) (Nat × τ) => s.2 <+: t.state.2)
    (List.prefix_refl _) ?_ ?_ ?_ ?_
  · exact fun t slot f ht _ _ => ht.trans (Turn.log_hear (t := t.land slot) slot f.taken)
  · exact fun t ht _ _ => ht.trans (Turn.log_send (t := { t with stage := .opened }) 0 _)
  · exact fun t _ slot _ f' ht _ _ _ =>
      ht.trans (Turn.log_send (t := { t with stage := .gathering f' }) slot _)
  · intro t ht _
    refine ht.trans ?_
    rw [Turn.abandonAll_numbers]
    exact List.prefix_append _ _

theorem log_abandonAll (s : σ × Log) (flights : List (Flight (Nat × τ))) :
    s.2 <+: (Turn.abandonAll T.logged s flights).2 := by
  rw [Turn.abandonAll_numbers]
  exact List.prefix_append _ _

theorem state_absorb {now : Nat} (t : Turn (σ × Log) (Nat × τ)) :
    (w.absorb now ticket sub t).state = t.state := by
  unfold absorb
  split <;> rfl

theorem log_turn (T : Transport σ τ) (w : World (σ × Log) (Nat × τ)) (now ticket : Nat) :
    w.state.2 <+: (w.turn T.logged now ticket).state.2 := by
  unfold turn
  split
  · exact List.prefix_refl _
  · split
    · exact List.prefix_refl _
    · split_ifs
      · rw [state_absorb]
        exact log_run T _ _ _ _
      · exact log_abandonAll _ _

theorem log_race (T : Transport σ τ) (w : World (σ × Log) (Nat × τ)) (now ticket : Nat) :
    w.state.2 <+: (w.race T.logged now ticket).state.2 := by
  unfold race
  split
  · exact List.prefix_refl _
  · split
    · exact List.prefix_refl _
    · rw [state_absorb]
      exact log_run T _ _ _ _

theorem log_tearDown (T : Transport σ τ) (w : World (σ × Log) (Nat × τ)) (ticket : Nat) :
    w.state.2 <+: (w.tearDown T.logged ticket).state.2 := by
  unfold tearDown
  split
  · exact List.prefix_refl _
  · split
    · exact List.prefix_refl _
    · exact log_abandonAll _ _

theorem log_perform (T : Transport σ τ) (w : World (σ × Log) (Nat × τ)) (act : Act σ) :
    w.state.2 <+: (w.perform T.logged act.logged).state.2 := by
  cases act with
  | turn now ticket => exact log_turn T { w with ready := w.ready.erase ticket } now ticket
  | race now ticket => exact log_race T w now ticket
  | tearDown ticket => exact log_tearDown T w ticket
  | drift f => exact List.prefix_refl _
  | submit | expire | cancel | poll | wait | register | release | notify =>
    refine ⟨[], (List.append_nil _).trans (congrArg Prod.snd ?_)⟩
    exact (state_perform_of_owner_eq_none rfl (by rintro f ⟨⟩)).symm

def sent (w : World (σ × Log) (Nat × τ)) : Nat :=
  w.state.2.requests.length

def Sends (T : Transport σ τ) (init : World (σ × Log) (Nat × τ)) (acts : List (Act σ))
    (ticket n : Nat) : Prop :=
  ∃ past act rest, acts = past ++ act :: rest ∧ act.owner = some ticket ∧
    (init.record T past).sent ≤ n ∧ n < (init.record T (past ++ [act])).sent

def Accounts (w : World (σ × Log) (Nat × τ)) (ticket n : Nat) : Prop :=
  w.state.2.Concluded n ∨
    ∃ sub, w.submissions[ticket]? = some sub ∧ n ∈ Flight.numbers sub.flights

theorem Accounts.cases (h : w.Accounts ticket n) (hsub : w.submissions[ticket]? = some sub) :
    w.state.2.Concluded n ∨ n ∈ Flight.numbers sub.flights := by
  refine h.imp_right fun ⟨other, hother, hmem⟩ => ?_
  rwa [Option.some.inj (hsub.symm.trans hother)]

section Steps

variable {w' : World (σ × Log) (Nat × τ)} {sub' : Submission (Nat × τ)} {task : Task (Nat × τ)}

theorem Accounts.keep (h : w.Accounts ticket n) (hlog : w.state.2 <+: w'.state.2)
    (hsub : w.submissions[ticket]? = some sub) (hsub' : w'.submissions[ticket]? = some sub')
    (hflights : sub'.flights = sub.flights) : w'.Accounts ticket n :=
  (h.cases hsub).imp (fun hconcluded => hconcluded.mono hlog)
    fun hmem => ⟨sub', hsub', hflights ▸ hmem⟩

theorem accounts_after (hsub : w.submissions[ticket]? = some sub) (had : sub.task = some task)
    (htidy : task.Tidy sub.command)
    (hstate : w'.state = (task.run T.logged w.settings sub.command w.state).state)
    (hsub' : w'.submissions[ticket]? =
      some (sub.after (task.run T.logged w.settings sub.command w.state)))
    (hn : w.Accounts ticket n ∨ w.sent ≤ n ∧ n < w'.sent) : w'.Accounts ticket n := by
  have hlog := log_run T w.settings sub.command w.state task
  have hsound := Task.sound_run htidy T w.settings w.state
  have hended : (task.run T.logged w.settings sub.command w.state).outcome.isSome = true →
      (task.run T.logged w.settings sub.command w.state).flights = [] := Task.flights_run task w.state
  set t := task.run T.logged w.settings sub.command w.state
  have hturn : t.state.2.Concluded n ∨ n ∈ Flight.numbers t.flights := by
    rcases hn with haccounts | ⟨hle, hlt⟩
    · rcases haccounts.cases hsub with hconcluded | hmem
      · exact .inl (hconcluded.mono hlog)
      · rw [Submission.flights, had] at hmem
        exact (hsound.accounts n (.inl hmem)).symm
    · rw [sent, hstate] at hlt
      exact (hsound.accounts n (.inr ⟨hle, hlt⟩)).symm
  refine hturn.imp (fun hconcluded => hstate ▸ hconcluded) fun hmem => ⟨_, hsub', ?_⟩
  cases houtcome : t.outcome with
  | none =>
    rw [Submission.after_of_none houtcome]
    exact hmem
  | some outcome =>
    rw [hended (by rw [houtcome]; rfl)] at hmem
    cases hmem

theorem accounts_abandonAll (hsub : w.submissions[ticket]? = some sub) (had : sub.task = some task)
    (hstate : w'.state = Turn.abandonAll T.logged w.state task.flights)
    (hn : w.Accounts ticket n ∨ w.sent ≤ n ∧ n < w'.sent) : w'.Accounts ticket n := by
  rw [sent, sent, hstate, Turn.abandonAll_numbers, Log.requests_append, Log.requests_dropped,
    List.append_nil] at hn
  refine .inl ?_
  rw [hstate]
  rcases hn.resolve_right (fun hnew => absurd hnew.2 (Nat.not_lt.mpr hnew.1)) |>.cases hsub with
    hconcluded | hmem
  · exact hconcluded.mono (log_abandonAll w.state task.flights)
  · rw [Submission.flights, had] at hmem
    exact Turn.concluded_abandonAll w.state hmem

end Steps

/-- The task of the submission is in the queue if the submission is settled, and it accounts for these
requests. -/
structure Tends (w : World (σ × Log) (Nat × τ)) (ticket : Nat) (Ours : Nat → Prop) : Prop where
  queued : ∀ sub, w.submissions[ticket]? = some sub → sub.standing ≠ .pending →
    sub.task.isSome = true → ticket ∈ w.ready
  accounts : ∀ n, Ours n → w.Accounts ticket n

variable {Ours : Nat → Prop}

theorem tends_of (hsub : w.submissions[ticket]? = some sub)
    (hqueued : sub.standing ≠ .pending → sub.task.isSome = true → ticket ∈ w.ready)
    (haccounts : ∀ n, Ours n → w.Accounts ticket n) : w.Tends ticket Ours := by
  refine ⟨fun other hother => ?_, haccounts⟩
  obtain rfl := Option.some.inj (hsub.symm.trans hother)
  exact hqueued

theorem Tends.perform (h : w.Tends ticket Ours) (htidy : w.Tasked Task.Tidy) (T : Transport σ τ)
    (hact : act.IsSerial) :
    (w.perform T.logged act.logged).Tends ticket fun n =>
      Ours n ∨ act.owner = some ticket ∧ w.sent ≤ n ∧ n < (w.perform T.logged act.logged).sent := by
  have hlog := log_perform T w act
  have howner : act.logged.owner = act.owner := owner_logged act
  set w' := w.perform T.logged act.logged
  have hnew {n : Nat} (hn : Ours n ∨ act.owner = some ticket ∧ w.sent ≤ n ∧ n < w'.sent) :
      w.Accounts ticket n ∨ w.sent ≤ n ∧ n < w'.sent :=
    hn.imp (h.accounts n) And.right
  -- An act that leaves the transport alone sends nothing.
  have hsilent (hstate : act.logged.owner = some ticket → w'.state = w.state) {n : Nat}
      (hn : Ours n ∨ act.owner = some ticket ∧ w.sent ≤ n ∧ n < w'.sent) : w.Accounts ticket n := by
    refine h.accounts n (hn.resolve_right fun ⟨hours, hle, hlt⟩ => ?_)
    rw [sent, hstate (howner.trans hours)] at hlt
    exact absurd hlt (Nat.not_lt.mpr hle)
  cases hsub : w.submissions[ticket]? with
  | none =>
    refine ⟨fun sub hfresh hsettled => absurd (fresh_perform hsub hfresh).1 hsettled, fun n hn => ?_⟩
    refine .inl ?_
    rcases hsilent (state_perform_of_none hsub) hn with hconcluded | ⟨sub, hsome, -⟩
    · exact hconcluded.mono hlog
    · rw [hsub] at hsome
      cases hsome
  | some sub =>
    cases moves_perform T.logged act.logged hsub with
    | rests submission state spared queued =>
      exact tends_of submission (fun hsettled htask => queued htask (h.queued sub hsub hsettled htask))
        fun n hn => (hsilent state hn).keep hlog hsub submission rfl
    | runs task had owner pending state submission =>
      refine tends_of submission (fun hsettled htask => absurd ?_ hsettled) fun n hn =>
        accounts_after hsub had (htidy ticket sub task hsub had) state submission (hnew hn)
      exact Submission.pending_after (pending (isSerial_logged.mpr hact)) htask
    | drops task had owner state submission =>
      exact tends_of submission (by rintro - ⟨⟩) fun n hn =>
        accounts_abandonAll hsub had state (hnew hn)
    | wakes task slot had foreign queued submission =>
      refine tends_of submission (fun _ _ => queued) fun n hn =>
        (hsilent (fun hours => ?_) hn).keep hlog hsub submission ?_
      · rw [foreign.1] at hours
        cases hours
      · rw [Submission.flights, Submission.flights, had]
        rfl
    | cancels pending owner target queued submission =>
      refine tends_of submission (fun _ _ => queued) fun n hn =>
        (hsilent (fun hours => ?_) hn).keep hlog hsub submission rfl
      rw [owner] at hours
      cases hours

/-- After a run, all requests that have been sent for a submission are accounted for. -/
theorem tends_record (T : Transport σ τ) (settings : Settings) (state : σ × Log) (ticket : Nat)
    {acts : List (Act σ)} (hacts : ∀ act ∈ acts, act.IsSerial) :
    ((start settings state).record T acts).Tends ticket
      ((start settings state).Sends T acts ticket) := by
  induction acts using List.reverseRecOn with
  | nil =>
    refine ⟨fun sub hsub => by simp [record, run, start] at hsub, ?_⟩
    rintro n ⟨past, act, rest, heq, -⟩
    cases past <;> cases heq
  | append_singleton acts act ih =>
    have htidy : ((start settings state).record T acts).Tasked Task.Tidy :=
      (lasts_tidy T.logged).run settings state (acts.map Act.logged)
    have htends := (ih fun act hact => hacts act (List.mem_append_left _ hact)).perform htidy T
      (hacts act (List.mem_append_right _ (List.mem_singleton_self act)))
    have hrecord : ((start settings state).record T acts).perform T.logged act.logged =
        (start settings state).record T (acts ++ [act]) := (record_append acts [act]).symm
    rw [hrecord] at htends
    refine ⟨htends.queued, fun n hn => htends.accounts n ?_⟩
    obtain ⟨past, other, rest, heq, howner, hle, hlt⟩ := hn
    rcases List.eq_nil_or_concat rest with rfl | ⟨rest, last, rfl⟩
    · obtain ⟨rfl, hlast⟩ := List.append_inj' heq rfl
      obtain rfl := (List.cons.inj hlast).1
      exact .inr ⟨howner, hle, hlt⟩
    · rw [List.concat_eq_append, ← List.cons_append, ← List.append_assoc] at heq
      obtain ⟨rfl, -⟩ := List.append_inj' heq rfl
      exact .inl ⟨past, other, rest, rfl, howner, hle, hlt⟩

theorem ready_turns (T : Transport σ τ) (now : Nat) (w : World σ τ) (queue : List Nat) :
    (queue.foldl (turn T now) w).ready = w.ready := by
  induction queue generalizing w with
  | nil => rfl
  | cons ticket rest ih => rw [List.foldl_cons, ih, ready_turn]

theorem ready_runReady (T : Transport σ τ) (now : Nat) (w : World σ τ) :
    (w.runReady T now).ready = [] :=
  ready_turns T now { w with ready := [] } w.ready

theorem runReady_eq_record (T : Transport σ τ) (now : Nat) (w : World (σ × Log) (Nat × τ)) :
    w.runReady T.logged now = w.record T (w.unlogged.readyActs now) := by
  rw [runReady_eq_run, record, readyActs, readyActs, List.map_append, List.map_map, List.map_map]
  rfl

theorem Sends.append {init : World (σ × Log) (Nat × τ)} {acts : List (Act σ)}
    (h : init.Sends T acts ticket n) (later : List (Act σ)) :
    init.Sends T (acts ++ later) ticket n := by
  obtain ⟨past, act, rest, rfl, h⟩ := h
  exact ⟨past, act, rest ++ later, by rw [List.append_assoc, List.cons_append], h⟩

section Rest

variable {settings : Settings} {state : σ × Log} {acts : List (Act σ)}

theorem tends_runReady (T : Transport σ τ) (settings : Settings) (state : σ × Log)
    (hacts : ∀ act ∈ acts, act.IsSerial) (now ticket : Nat) :
    (((start settings state).record T acts).runReady T.logged now).Tends ticket
      ((start settings state).Sends T acts ticket) := by
  set w := (start settings state).record T acts
  set later := w.unlogged.readyActs now
  have hrecord : w.runReady T.logged now = (start settings state).record T (acts ++ later) :=
    (runReady_eq_record T now w).trans (record_append acts later).symm
  have htends := tends_record T settings state ticket
    (List.forall_mem_append.mpr ⟨hacts, isSerial_readyActs now w.unlogged⟩)
  rw [hrecord]
  exact ⟨htends.queued, fun n hn => htends.accounts n (hn.append later)⟩

theorem task_runReady (T : Transport σ τ) (hacts : ∀ act ∈ acts, act.IsSerial)
    (hsettled : ((start settings state).record T acts).standing ticket ≠ .pending) (now : Nat) :
    ∃ sub, (((start settings state).record T acts).runReady T.logged now).submissions[ticket]? =
      some sub ∧ sub.task = none := by
  have htends := tends_runReady T settings state hacts now ticket
  set w := (start settings state).record T acts
  obtain ⟨before, hbefore, hne⟩ := exists_of_settled hsettled
  obtain ⟨sub, hsub, -, hstanding⟩ := exists_submission_run (T := T.logged) hbefore
    (w.readyActs now)
  rw [← runReady_eq_run] at hsub
  refine ⟨sub, hsub, ?_⟩
  by_contra hsome
  have hqueued := htends.queued sub hsub (hstanding hne ▸ hne) (Option.isSome_iff_ne_none.mpr hsome)
  rw [ready_runReady] at hqueued
  cases hqueued

/-- Once the tasks that can run have had their turns, each request of a settled submission has been
answered or dropped. -/
theorem concluded_runReady (T : Transport σ τ) (settings : Settings) (state : σ × Log)
    (hacts : ∀ act ∈ acts, act.IsSerial)
    (hsettled : ((start settings state).record T acts).standing ticket ≠ .pending) (now : Nat)
    (hn : (start settings state).Sends T acts ticket n) :
    (((start settings state).record T acts).runReady T.logged now).state.2.Concluded n := by
  obtain ⟨sub, hsub, htask⟩ := task_runReady T hacts hsettled now
  have haccounts := (tends_runReady T settings state hacts now ticket).accounts n hn
  refine (haccounts.cases hsub).resolve_right fun hmem => ?_
  rw [Submission.flights, htask] at hmem
  cases hmem

end Rest

end Logged

theorem unlogged_runReady (T : Transport σ τ) (now : Nat) (w : World (σ × Log) (Nat × τ)) :
    (w.runReady T.logged now).unlogged = w.unlogged.runReady T now := by
  rw [runReady_eq_record, unlogged_record, runReady_eq_run]

end World

/-- Whatever has been asked of a session, a settled command has no task once the session has settled
its tasks. -/
theorem Session.task_settle (T : Transport σ τ) (settings : Settings) (state : σ)
    (calls : List Call) {ticket : Nat}
    (hsettled : ((Session.start settings state).calls T calls).world.standing ticket ≠ .pending) :
    ∃ sub, (((Session.start settings state).calls T calls).settle T).world.submissions[ticket]? =
      some sub ∧ sub.task = none := by
  set s := (Session.start settings state).calls T calls
  obtain ⟨acts, hserial, hrun⟩ := Session.reaches_calls T (Session.start settings state) calls
  set w := (World.start settings (state, [])).record T acts with hw
  have hworld : w.unlogged = s.world := (World.unlogged_record _ acts).trans hrun
  rw [← hworld, World.standing_unlogged] at hsettled
  obtain ⟨sub, hsub, htask⟩ := World.task_runReady T hserial hsettled s.now
  refine ⟨sub.unlogged, ?_, by rw [Submission.unlogged, htask]; rfl⟩
  change (s.world.runReady T s.now).submissions[ticket]? = _
  rw [← hworld, ← World.unlogged_runReady, World.submission_unlogged, hsub]
  rfl

end Timeslice
