import Timeslice.Proofs.Session.Moves

/-!
# What a submission keeps

A submission that is settled stays as it is, one that is pending has its task, and none is cancelled
but by a call for it.
-/

namespace Timeslice

variable {σ τ : Type}

section Causes

variable {settings : Settings} {c : Command} {stage : Stage} {slot : Nat}

def Command.gathers : Command → Bool
  | .query _ (.select _) => true
  | _ => false

theorem Command.afterOpening_cases (c : Command) (settings : Settings) (response : Response) :
    (∃ outcome, c.afterOpening settings response = .settled outcome ∧ outcome ≠ .error .cancelled) ∨
      c.gathers = true ∧ ∃ plan,
        c.afterOpening settings response = .goesOn (.gathering (.ofPlan plan)) := by
  cases c with
  | query text statement =>
    cases response with
    | empty | rows result => exact .inl ⟨_, rfl, by rintro ⟨⟩⟩
    | table schema =>
      cases statement with
      | describe table => exact .inl ⟨_, rfl, by rintro ⟨⟩⟩
      | select select =>
        simp only [afterOpening, Response.asTable, plan]
        split
        · exact .inl ⟨_, rfl, by rintro ⟨⟩⟩
        · split_ifs
          · exact .inl ⟨_, rfl, by rintro ⟨⟩⟩
          · exact .inr ⟨rfl, _, rfl⟩
  | createTable _ | store _ _ | fetch _ _ | delete _ _ | listKeys _ | describeTable _ =>
    cases response <;> exact .inl ⟨_, rfl, by rintro ⟨⟩⟩

/-- Only a call for it cancels a command; no reply does. -/
theorem Command.receive_ne_cancelled (reply : Except Rejection Response) :
    c.receive settings stage slot reply ≠ .settled (.error .cancelled) := by
  intro h
  unfold receive at h
  split at h
  · next f =>
    split at h
    · next cause hcause =>
      cases h
      unfold Fanout.receive at hcause
      cases hpart : Fanout.part f.plan reply with
      | error cause =>
        rw [hpart] at hcause
        cases hcause
        cases Fanout.part_eq_error_iff.mp hpart
      | ok part =>
        rw [hpart] at hcause
        cases hcause
    · split_ifs at h
      cases h
  · split at h
    · cases h
    · next response =>
      rcases c.afterOpening_cases settings response with ⟨outcome, heq, hne⟩ | ⟨-, plan, heq⟩
      · rw [heq] at h
        exact hne (Progress.settled.inj h)
      · rw [heq] at h
        cases h

variable {T : Transport σ τ} {t : Turn σ τ}

theorem Turn.outcome_hear_ne_cancelled (h : t.outcome ≠ some (.error .cancelled)) (slot : Nat)
    (taken : τ) : (t.hear T settings c slot taken).outcome ≠ some (.error .cancelled) := by
  unfold hear
  rcases T.answer t.state taken with ⟨state, answer⟩
  cases answer with
  | reply reply =>
    simp only [advance]
    split
    · exact h
    · next outcome hsettled =>
      rintro ⟨⟩
      exact Command.receive_ne_cancelled reply hsettled
  | silent => exact h
  | broken => rintro ⟨⟩

theorem Turn.outcome_send_ne_cancelled (h : t.outcome ≠ some (.error .cancelled)) (slot : Nat)
    (r : Request) : (t.send T settings c slot r).outcome ≠ some (.error .cancelled) := by
  unfold send
  rcases T.arrive t.state r with ⟨state, intake⟩
  dsimp only
  split_ifs
  · exact outcome_hear_ne_cancelled (t := { t with state := state }) h slot intake.taken
  · exact h

theorem Task.outcome_run_ne_cancelled (state : σ) (task : Task τ) :
    (task.run T settings c state).outcome ≠ some (.error .cancelled) :=
  Task.run_induction (P := fun t => t.outcome ≠ some (.error .cancelled)) (by rintro ⟨⟩)
    (fun t slot f ht _ _ => Turn.outcome_hear_ne_cancelled (t := t.land slot) ht slot f.taken)
    (fun t ht _ _ => Turn.outcome_send_ne_cancelled (t := { t with stage := .opened }) ht 0 _)
    (fun t _ slot _ f' ht _ _ _ =>
      Turn.outcome_send_ne_cancelled (t := { t with stage := .gathering f' }) ht slot _)
    fun _ ht _ => ht

end Causes

namespace Command

variable {c : Command} {typed : Bool} {outcome : Outcome}

theorem conclude_settled (c : Command) (typed : Bool) :
    c.conclude typed outcome ≠ .pending ∧ c.conclude typed outcome ≠ .cancelled := by
  unfold conclude
  split
  · exact ⟨by rintro ⟨⟩, by rintro ⟨⟩⟩
  · split_ifs <;> exact ⟨by rintro ⟨⟩, by rintro ⟨⟩⟩

theorem cause_conclude_ne_cancelled (h : outcome ≠ .error .cancelled) {failure : Failure}
    (hfailed : c.conclude typed outcome = .failed failure) : failure.cause ≠ .cancelled := by
  unfold conclude at hfailed
  split at hfailed
  · next cause =>
    cases hfailed
    exact fun hcause => h (congrArg _ hcause)
  · split_ifs at hfailed
    cases hfailed
    rintro ⟨⟩

end Command

namespace Submission

/-- A pending submission has its task, and only a call for it cancels a submission. -/
structure IsSound (sub : Submission τ) : Prop where
  tasked : sub.standing = .pending → sub.task.isSome = true
  uncancelled : ∀ failure, sub.standing = .failed failure → failure.cause ≠ .cancelled

structure Follows (cancelling : Prop) (sub sub' : Submission τ) : Prop where
  command : sub'.command = sub.command
  standing : sub.standing ≠ .pending → sub'.standing = sub.standing
  isSound : sub.IsSound → sub'.IsSound
  cancelled : sub'.standing = .cancelled ↔
    sub.standing = .cancelled ∨ cancelling ∧ sub.standing = .pending

variable {sub sub' : Submission τ} {cancelling : Prop}

theorem follows_of_task (h : cancelling → sub.standing ≠ .pending) {task : Option (Task τ)}
    (htask : task.isSome = sub.task.isSome) :
    Follows cancelling sub { sub with task := task } where
  command := rfl
  standing := fun _ => rfl
  isSound := fun hsub => ⟨fun hpending => htask.trans (hsub.tasked hpending), hsub.uncancelled⟩
  cancelled := ⟨.inl, fun hor => hor.elim id fun hand => absurd hand.2 (h hand.1)⟩

theorem follows_of_settle (h : ¬ cancelling) {new : Standing} (hpending : new ≠ .pending)
    (hcancelled : new ≠ .cancelled) (hcause : ∀ failure, new = .failed failure →
      failure.cause ≠ .cancelled) :
    Follows cancelling sub { sub with standing := sub.standing.settle new, task := none } := by
  by_cases hsub : sub.standing = .pending
  · have hsettle : sub.standing.settle new = new := by
      rw [hsub]
      rfl
    rw [hsettle]
    exact ⟨rfl, fun hsettled => absurd hsub hsettled, fun _ => ⟨fun hnew => absurd hnew hpending, hcause⟩,
      by simp [hcancelled, hsub, h]⟩
  · rw [Standing.settle_of_ne_pending hsub]
    exact ⟨rfl, fun _ => rfl, fun hsound => ⟨fun hpending' => absurd hpending' hsub, hsound.uncancelled⟩,
      by simp [h]⟩

theorem follows_after (h : ¬ cancelling) (htask : sub.task.isSome = true) {t : Turn σ τ}
    (ht : t.outcome ≠ some (.error .cancelled)) : Follows cancelling sub (sub.after t) := by
  cases houtcome : t.outcome with
  | none =>
    rw [after_of_none houtcome]
    exact follows_of_task (fun hyes => absurd hyes h) htask.symm
  | some outcome =>
    rw [after_of_some houtcome]
    obtain ⟨hpending, hcancelled⟩ := sub.command.conclude_settled sub.typed
    exact follows_of_settle h hpending hcancelled fun failure =>
      Command.cause_conclude_ne_cancelled fun heq => ht (houtcome.trans (congrArg some heq))

theorem follows_withoutTask (h : ¬ cancelling) (sub : Submission τ) :
    Follows cancelling sub sub.withoutTask :=
  follows_of_settle h (by rintro ⟨⟩) (by rintro ⟨⟩) (by rintro failure ⟨⟩ ⟨⟩)

theorem follows_cancelled (h : cancelling) (hpending : sub.standing = .pending) :
    Follows cancelling sub { sub with standing := .cancelled } :=
  ⟨rfl, fun hsettled => absurd hpending hsettled, fun _ => ⟨by rintro ⟨⟩, by rintro failure ⟨⟩⟩,
    by simp [h, hpending]⟩

end Submission

namespace World

variable {T : Transport σ τ} {w w' : World σ τ} {act : Act σ} {ticket : Nat} {sub : Submission τ}

theorem Moves.exists_follows (h : Moves T w act ticket sub w') :
    ∃ sub', w'.submissions[ticket]? = some sub' ∧
      Submission.Follows (act.target = some ticket) sub sub' := by
  have hforeign (howner : act.owner = some ticket) : ¬ act.target = some ticket := by
    cases act <;> simp [Act.owner, Act.target] at howner ⊢
  cases h with
  | rests submission _ spared =>
    exact ⟨sub, submission, Submission.follows_of_task spared rfl⟩
  | runs task had owner _ _ submission =>
    exact ⟨_, submission, Submission.follows_after (hforeign owner) (by rw [had]; rfl)
      (Task.outcome_run_ne_cancelled _ _)⟩
  | drops task had owner _ submission =>
    exact ⟨_, submission, Submission.follows_withoutTask (hforeign owner) sub⟩
  | wakes task slot had foreign _ submission =>
    refine ⟨_, submission, Submission.follows_of_task (fun htarget => ?_) (by rw [had]; rfl)⟩
    rw [foreign.2] at htarget
    cases htarget
  | cancels pending _ target _ submission =>
    exact ⟨_, submission, Submission.follows_cancelled target pending⟩

structure Alike (w w' : World σ τ) : Prop where
  length : w'.submissions.length = w.submissions.length
  callbacks : w'.callbacks = w.callbacks

theorem alike_refl (w : World σ τ) : Alike w w :=
  ⟨rfl, rfl⟩

theorem alike_absorb (w : World σ τ) (now ticket : Nat) (sub : Submission τ) (t : Turn σ τ) :
    Alike w (w.absorb now ticket sub t) := by
  unfold absorb
  split <;> exact ⟨List.length_set, rfl⟩

theorem alike_drop (w : World σ τ) (ticket : Nat) (sub : Submission τ) (task : Task τ) :
    Alike w (w.drop T ticket sub task) :=
  ⟨List.length_set, rfl⟩

theorem alike_turn (w : World σ τ) (now ticket : Nat) : Alike w (w.turn T now ticket) := by
  unfold turn
  split
  · exact alike_refl w
  · split
    · exact alike_refl w
    · split_ifs
      · exact alike_absorb w now ticket _ _
      · exact alike_drop w ticket _ _

theorem alike_race (w : World σ τ) (now ticket : Nat) : Alike w (w.race T now ticket) := by
  unfold race
  split
  · exact alike_refl w
  · split
    · exact alike_refl w
    · exact alike_absorb w now ticket _ _

theorem alike_tearDown (w : World σ τ) (ticket : Nat) : Alike w (w.tearDown T ticket) := by
  unfold tearDown
  split
  · exact alike_refl w
  · split
    · exact alike_refl w
    · exact alike_drop w ticket _ _

theorem alike_enqueue (w : World σ τ) (ticket : Nat) : Alike w (w.enqueue ticket) := by
  unfold enqueue
  split_ifs <;> exact ⟨rfl, rfl⟩

theorem alike_expire (w : World σ τ) (timer : Timer) : Alike w (w.expire timer) := by
  unfold expire
  split
  · exact alike_refl w
  · next sub _ =>
    split
    · exact alike_refl w
    · next task _ =>
      have h := alike_enqueue ({ w with
        submissions := w.submissions.set timer.ticket
          { sub with task := some { task with woken := task.woken ++ [timer.slot] } } }) timer.ticket
      exact ⟨h.length.trans List.length_set, h.callbacks⟩

theorem alike_cancel (w : World σ τ) (ticket : Nat) : Alike w (w.cancel ticket) := by
  unfold cancel
  split
  · exact alike_refl w
  · next sub _ =>
    split_ifs
    · have h := alike_enqueue ({ w with
        submissions := w.submissions.set ticket { sub with standing := .cancelled } }) ticket
      exact ⟨h.length.trans List.length_set, h.callbacks⟩
    · exact alike_refl w

theorem length_perform (act : Act σ) (h : ∀ c typed, act ≠ .submit c typed) :
    (w.perform T act).submissions.length = w.submissions.length := by
  cases act with
  | submit c typed => exact absurd rfl (h c typed)
  | turn now ticket => exact (alike_turn { w with ready := w.ready.erase ticket } now ticket).length
  | race now ticket => exact (alike_race w now ticket).length
  | tearDown ticket => exact (alike_tearDown w ticket).length
  | expire timer => exact (alike_expire { w with timers := w.timers.erase timer } timer).length
  | cancel ticket => exact (alike_cancel w ticket).length
  | notify n => exact congrArg List.length (notify_spec w n).1
  | poll | wait | register | release | drift => rfl

theorem fresh_perform {act : Act σ} (hnone : w.submissions[ticket]? = none)
    (hsub : (w.perform T act).submissions[ticket]? = some sub) :
    sub.standing = .pending ∧ sub.task = some .start := by
  have hle := List.getElem?_eq_none_iff.mp hnone
  by_cases hsubmit : ∃ c typed, act = .submit c typed
  · obtain ⟨c, typed, rfl⟩ := hsubmit
    rw [perform, submit, List.getElem?_append_right hle, List.getElem?_singleton] at hsub
    split_ifs at hsub
    cases hsub
    exact ⟨rfl, rfl⟩
  · push Not at hsubmit
    have hlt := (List.getElem?_eq_some_iff.mp hsub).1
    rw [length_perform act hsubmit] at hlt
    omega

/-- A submission goes on through a run, and once it is settled it stays as it is. -/
theorem exists_submission_run (h : w.submissions[ticket]? = some sub) (acts : List (Act σ)) :
    ∃ sub', (w.run T acts).submissions[ticket]? = some sub' ∧ sub'.command = sub.command ∧
      (sub.standing ≠ .pending → sub'.standing = sub.standing) := by
  refine run_induction (P := fun w => ∃ sub', w.submissions[ticket]? = some sub' ∧
    sub'.command = sub.command ∧ (sub.standing ≠ .pending → sub'.standing = sub.standing))
    ⟨sub, h, rfl, fun _ => rfl⟩ fun w act _ hw => ?_
  obtain ⟨sub', hsub', hcommand, hstanding⟩ := hw
  obtain ⟨next, hnext, hfollows⟩ := (moves_perform T act hsub').exists_follows
  refine ⟨next, hnext, hfollows.command.trans hcommand, fun hsettled => ?_⟩
  have heq := hstanding hsettled
  exact (hfollows.standing (heq ▸ hsettled)).trans heq

def IsSound (w : World σ τ) : Prop :=
  ∀ (ticket : Nat) (sub : Submission τ), w.submissions[ticket]? = some sub → sub.IsSound

theorem isSound_start (settings : Settings) (state : σ) :
    (start settings state : World σ τ).IsSound := by
  intro ticket sub hsub
  simp [start] at hsub

theorem IsSound.perform (h : w.IsSound) (act : Act σ) : (w.perform T act).IsSound := by
  intro ticket sub hsub
  cases hbefore : w.submissions[ticket]? with
  | none =>
    obtain ⟨hpending, htask⟩ := fresh_perform hbefore hsub
    refine ⟨fun _ => by rw [htask]; rfl, fun failure hfailed => ?_⟩
    rw [hpending] at hfailed
    cases hfailed
  | some before =>
    obtain ⟨after, hafter, hfollows⟩ := (moves_perform T act hbefore).exists_follows
    obtain rfl : after = sub := Option.some.inj (hafter.symm.trans hsub)
    exact hfollows.isSound (h ticket before hbefore)

theorem IsSound.run (h : w.IsSound) (acts : List (Act σ)) : (w.run T acts).IsSound :=
  run_induction h fun _ act _ hw => hw.perform act

theorem standing_eq (hsub : w.submissions[ticket]? = some sub) : w.standing ticket = sub.standing := by
  rw [standing, hsub]
  rfl

def Tasked (P : Command → Task τ → Prop) (w : World σ τ) : Prop :=
  ∀ (ticket : Nat) (sub : Submission τ) (task : Task τ), w.submissions[ticket]? = some sub →
    sub.task = some task → P sub.command task

/-- The property holds of a new task, and turns and answers that come due keep it. -/
structure Lasts (T : Transport σ τ) (P : Command → Task τ → Prop) : Prop where
  start : ∀ c, P c .start
  turn : ∀ settings c state task, P c task →
    P c ⟨(task.run T settings c state).stage, (task.run T settings c state).flights, []⟩
  wake : ∀ c task slot, P c task → P c { task with woken := task.woken ++ [slot] }

variable {P : Command → Task τ → Prop}

theorem Tasked.perform (h : w.Tasked P) (start : ∀ c, P c .start)
    (turn : ∀ c task, P c task → (task.run T w.settings c w.state).outcome = none →
      P c ⟨(task.run T w.settings c w.state).stage, (task.run T w.settings c w.state).flights, []⟩)
    (wake : ∀ c task slot, P c task → P c { task with woken := task.woken ++ [slot] })
    (act : Act σ) : (w.perform T act).Tasked P := by
  intro ticket sub task hsub htask
  cases hbefore : w.submissions[ticket]? with
  | none =>
    rw [(fresh_perform hbefore hsub).2] at htask
    cases htask
    exact start sub.command
  | some before =>
    have hsame {sub' : Submission τ} (hsub' : (w.perform T act).submissions[ticket]? = some sub')
        (h : ∀ task', sub'.task = some task' → P sub'.command task') : P sub.command task := by
      obtain rfl := Option.some.inj (hsub'.symm.trans hsub)
      exact h task htask
    cases moves_perform T act hbefore with
    | rests submission | cancels _ _ _ _ submission =>
      exact hsame submission fun task' => h ticket before task' hbefore
    | runs old had _ _ _ submission =>
      refine hsame submission fun task' htask' => ?_
      rw [Submission.command_after]
      obtain ⟨hgoes, rfl⟩ := Submission.eq_of_task_after htask'
      exact turn _ old (h ticket before old hbefore had) hgoes
    | drops _ _ _ _ submission => exact hsame submission (by rintro task' ⟨⟩)
    | wakes old slot had _ _ submission =>
      refine hsame submission ?_
      rintro task' ⟨⟩
      exact wake _ old slot (h ticket before old hbefore had)

theorem Lasts.perform (hP : Lasts T P) (h : w.Tasked P) (act : Act σ) : (w.perform T act).Tasked P :=
  Tasked.perform h hP.start (fun c task htask _ => hP.turn _ c _ task htask) hP.wake act

/-- What lasts holds of all tasks of a world that has begun without any. -/
theorem Lasts.run (hP : Lasts T P) (settings : Settings) (state : σ) (acts : List (Act σ)) :
    ((World.start settings state).run T acts).Tasked P :=
  run_induction (P := Tasked P) (by intro ticket sub task hsub; simp [World.start] at hsub)
    fun _ act _ hw => hP.perform hw act

end World

end Timeslice
