import Timeslice.Proofs.Session.Acts
import Timeslice.Proofs.Session.Frame
import Timeslice.Proofs.Session.Turn

/-!
# What an act makes of a submission

An act has the task of a submission run, drops it, wakes it or cancels the submission; all other acts
leave the submission alone. A submission that is settled stays as it is, one that is pending has its
task, and none is cancelled but by a call for it.
-/

namespace Timeslice

variable {σ τ : Type}

namespace Submission

def after (sub : Submission τ) (t : Turn σ τ) : Submission τ :=
  match t.outcome with
  | some outcome =>
    { sub with standing := sub.standing.settle (sub.command.conclude sub.typed outcome), task := none }
  | none => { sub with task := some ⟨t.stage, t.flights, []⟩ }

theorem after_of_some {t : Turn σ τ} {outcome : Outcome} (h : t.outcome = some outcome)
    (sub : Submission τ) :
    sub.after t =
      { sub with
        standing := sub.standing.settle (sub.command.conclude sub.typed outcome)
        task := none } := by
  rw [after, h]

theorem after_of_none {t : Turn σ τ} (h : t.outcome = none) (sub : Submission τ) :
    sub.after t = { sub with task := some ⟨t.stage, t.flights, []⟩ } := by
  rw [after, h]

theorem command_after (sub : Submission τ) (t : Turn σ τ) : (sub.after t).command = sub.command := by
  unfold after
  split <;> rfl

theorem eq_of_task_after {sub : Submission τ} {t : Turn σ τ} {task : Task τ}
    (h : (sub.after t).task = some task) : t.outcome = none ∧ task = ⟨t.stage, t.flights, []⟩ := by
  cases houtcome : t.outcome with
  | some outcome =>
    rw [after_of_some houtcome] at h
    cases h
  | none =>
    rw [after_of_none houtcome] at h
    exact ⟨rfl, (Option.some.inj h).symm⟩

theorem pending_after {sub : Submission τ} {t : Turn σ τ} (h : sub.standing = .pending)
    (htask : (sub.after t).task.isSome = true) : (sub.after t).standing = .pending := by
  cases houtcome : t.outcome with
  | some outcome =>
    rw [after_of_some houtcome] at htask
    cases htask
  | none =>
    rw [after_of_none houtcome]
    exact h

end Submission

namespace World

namespace Act

/-- The submission whose task an act is about. -/
def owner : Act σ → Option Nat
  | .turn _ ticket | .race _ ticket | .tearDown ticket => some ticket
  | _ => none

def target : Act σ → Option Nat
  | .cancel ticket => some ticket
  | _ => none

/-- The acts that can happen where a task is not run while it is cancelled. -/
def IsSerial : Act σ → Prop
  | .race _ _ => False
  | _ => True

end Act

/-- What an act makes of a submission and its task. -/
inductive Moves (T : Transport σ τ) (w : World σ τ) (act : Act σ) (ticket : Nat)
    (sub : Submission τ) (w' : World σ τ) : Prop where
  | rests (submission : w'.submissions[ticket]? = some sub)
    (state : act.owner = some ticket → w'.state = w.state)
    (spared : act.target = some ticket → sub.standing ≠ .pending)
    (queued : sub.task.isSome = true → ticket ∈ w.ready → ticket ∈ w'.ready)
  | runs (task : Task τ) (had : sub.task = some task) (owner : act.owner = some ticket)
    (pending : act.IsSerial → sub.standing = .pending)
    (state : w'.state = (task.run T w.settings sub.command w.state).state)
    (submission : w'.submissions[ticket]? =
      some (sub.after (task.run T w.settings sub.command w.state)))
  | drops (task : Task τ) (had : sub.task = some task) (owner : act.owner = some ticket)
    (state : w'.state = Turn.abandonAll T w.state task.flights)
    (submission : w'.submissions[ticket]? = some sub.withoutTask)
  | wakes (task : Task τ) (slot : Nat) (had : sub.task = some task)
    (foreign : act.owner = none ∧ act.target = none) (queued : ticket ∈ w'.ready)
    (submission : w'.submissions[ticket]? =
      some { sub with task := some { task with woken := task.woken ++ [slot] } })
  | cancels (pending : sub.standing = .pending) (owner : act.owner = none)
    (target : act.target = some ticket) (queued : ticket ∈ w'.ready)
    (submission : w'.submissions[ticket]? = some { sub with standing := .cancelled })

section Moves

variable {T : Transport σ τ} {w w' : World σ τ} {act : Act σ} {now ticket : Nat}
  {sub : Submission τ}

theorem moves_foreign (howner : act.owner ≠ some ticket) (htarget : act.target ≠ some ticket)
    (hsub : w'.submissions[ticket]? = some sub)
    (hready : sub.task.isSome = true → ticket ∈ w.ready → ticket ∈ w'.ready) :
    Moves T w act ticket sub w' :=
  .rests hsub (fun h => absurd h howner) (fun h => absurd h htarget) hready

theorem ready_absorb (w : World σ τ) (t : Turn σ τ) : (w.absorb now ticket sub t).ready = w.ready := by
  unfold absorb
  split <;> rfl

theorem ready_turn (w : World σ τ) : (w.turn T now ticket).ready = w.ready := by
  unfold turn
  split
  · rfl
  · split
    · rfl
    · split_ifs
      · exact ready_absorb w _
      · rfl

theorem absorb_spec (now : Nat) (hsub : w.submissions[ticket]? = some sub) (t : Turn σ τ) :
    (w.absorb now ticket sub t).state = t.state ∧
      (w.absorb now ticket sub t).submissions[ticket]? = some (sub.after t) := by
  have hlt : ticket < w.submissions.length := (List.getElem?_eq_some_iff.mp hsub).1
  unfold absorb
  cases houtcome : t.outcome with
  | some outcome =>
    rw [Submission.after_of_some houtcome]
    exact ⟨rfl, List.getElem?_set_self hlt⟩
  | none =>
    rw [Submission.after_of_none houtcome]
    exact ⟨rfl, List.getElem?_set_self hlt⟩

theorem moves_submit (c : Command) (typed : Bool) (hsub : w.submissions[ticket]? = some sub) :
    Moves T w (.submit c typed) ticket sub (w.submit c typed) := by
  have hlt : ticket < w.submissions.length := (List.getElem?_eq_some_iff.mp hsub).1
  exact moves_foreign (by rintro ⟨⟩) (by rintro ⟨⟩) ((List.getElem?_append_left hlt).trans hsub)
    fun _ hready => List.mem_append_left _ hready

theorem moves_turn (other : Nat) (hsub : w.submissions[ticket]? = some sub) :
    Moves T w (.turn now other) ticket sub
      ({ w with ready := w.ready.erase other }.turn T now other) := by
  set w₀ : World σ τ := { w with ready := w.ready.erase other }
  by_cases hother : other = ticket
  · subst hother
    have hsub₀ : w₀.submissions[other]? = some sub := hsub
    cases htask : sub.task with
    | none =>
      rw [turn_eq_self hsub₀ htask]
      exact .rests hsub (fun _ => rfl) (by rintro ⟨⟩) fun hsome => by rw [htask] at hsome; cases hsome
    | some task =>
      by_cases hpending : sub.standing = .pending
      · obtain ⟨hstate, hafter⟩ := absorb_spec now hsub₀
          (task.run T w.settings sub.command w.state)
        rw [turn_eq_absorb hsub₀ htask hpending]
        exact .runs task htask rfl (fun _ => hpending) hstate hafter
      · rw [turn_eq_drop hsub₀ htask hpending]
        exact .drops task htask rfl rfl
          (List.getElem?_set_self (List.getElem?_eq_some_iff.mp hsub₀).1)
  · refine moves_foreign (fun h => hother (Option.some.inj h)) (by rintro ⟨⟩) ?_ fun _ hready => ?_
    · exact (sameFor_turn hother).submission.trans hsub
    · rw [ready_turn]
      exact (List.mem_erase_of_ne (Ne.symm hother)).mpr hready

theorem moves_race (other : Nat) (hsub : w.submissions[ticket]? = some sub) :
    Moves T w (.race now other) ticket sub (w.race T now other) := by
  by_cases hother : other = ticket
  · subst hother
    cases htask : sub.task with
    | none =>
      have hrace : w.race T now other = w := by simp only [race, hsub, htask]
      rw [hrace]
      exact .rests hsub (fun _ => rfl) (by rintro ⟨⟩) fun _ hready => hready
    | some task =>
      have hrace : w.race T now other =
          w.absorb now other sub (task.run T w.settings sub.command w.state) := by
        simp only [race, hsub, htask]
      obtain ⟨hstate, hafter⟩ := absorb_spec now hsub
        (task.run T w.settings sub.command w.state)
      rw [hrace]
      exact .runs task htask rfl (by rintro ⟨⟩) hstate hafter
  · have hsame : SameFor ticket w (w.race T now other) ∧ (w.race T now other).ready = w.ready := by
      unfold race
      split
      · exact ⟨sameFor_refl ticket w, rfl⟩
      · split
        · exact ⟨sameFor_refl ticket w, rfl⟩
        · exact ⟨sameFor_absorb hother _, ready_absorb w _⟩
    refine moves_foreign (fun h => hother (Option.some.inj h)) (by rintro ⟨⟩)
      (hsame.1.submission.trans hsub) fun _ hready => ?_
    rwa [hsame.2]

theorem moves_tearDown (other : Nat) (hsub : w.submissions[ticket]? = some sub) :
    Moves T w (.tearDown other) ticket sub (w.tearDown T other) := by
  by_cases hother : other = ticket
  · subst hother
    cases htask : sub.task with
    | none =>
      have hdown : w.tearDown T other = w := by simp only [tearDown, hsub, htask]
      rw [hdown]
      exact .rests hsub (fun _ => rfl) (by rintro ⟨⟩) fun _ hready => hready
    | some task =>
      have hdown : w.tearDown T other = w.drop T other sub task := by
        simp only [tearDown, hsub, htask]
      rw [hdown]
      exact .drops task htask rfl rfl
        (List.getElem?_set_self (List.getElem?_eq_some_iff.mp hsub).1)
  · have hsame : SameFor ticket w (w.tearDown T other) ∧ (w.tearDown T other).ready = w.ready := by
      unfold tearDown
      split
      · exact ⟨sameFor_refl ticket w, rfl⟩
      · split
        · exact ⟨sameFor_refl ticket w, rfl⟩
        · exact ⟨sameFor_drop hother _, rfl⟩
    refine moves_foreign (fun h => hother (Option.some.inj h)) (by rintro ⟨⟩)
      (hsame.1.submission.trans hsub) fun _ hready => ?_
    rwa [hsame.2]

theorem submissions_enqueue (w : World σ τ) (ticket : Nat) :
    (w.enqueue ticket).submissions = w.submissions := by
  unfold enqueue
  split_ifs <;> rfl

theorem moves_expire (timer : Timer) (hsub : w.submissions[ticket]? = some sub) :
    Moves T w (.expire timer) ticket sub
      ({ w with timers := w.timers.erase timer }.expire timer) := by
  set w₀ : World σ τ := { w with timers := w.timers.erase timer }
  by_cases hticket : timer.ticket = ticket
  · subst hticket
    have hsub₀ : w₀.submissions[timer.ticket]? = some sub := hsub
    cases htask : sub.task with
    | none =>
      rw [expire_eq_self hsub₀ htask rfl]
      exact .rests hsub (by rintro ⟨⟩) (by rintro ⟨⟩) fun _ hready => hready
    | some task =>
      have hexpire : w₀.expire timer = ({ w₀ with
          submissions := w₀.submissions.set timer.ticket
            { sub with task := some { task with woken := task.woken ++ [timer.slot] } } }).enqueue
              timer.ticket := by
        simp only [expire, hsub₀, htask]
      rw [hexpire]
      refine .wakes task timer.slot htask ⟨rfl, rfl⟩ (mem_enqueue _ _) ?_
      rw [submissions_enqueue]
      exact List.getElem?_set_self (List.getElem?_eq_some_iff.mp hsub₀).1
  · exact moves_foreign (by rintro ⟨⟩) (by rintro ⟨⟩) ((sameFor_expire hticket).submission.trans hsub)
      fun _ hready => subset_expire timer hready

theorem moves_cancel (other : Nat) (hsub : w.submissions[ticket]? = some sub) :
    Moves T w (.cancel other) ticket sub (w.cancel other) := by
  by_cases hother : other = ticket
  · subst hother
    by_cases hpending : sub.standing.isPending = true
    · have hcancel : w.cancel other = ({ w with
          submissions := w.submissions.set other { sub with standing := .cancelled } }).enqueue
            other := by
        simp only [cancel, hsub, if_pos hpending]
      rw [hcancel]
      refine .cancels (Standing.isPending_iff.mp hpending) rfl rfl (mem_enqueue _ _) ?_
      rw [submissions_enqueue]
      exact List.getElem?_set_self (List.getElem?_eq_some_iff.mp hsub).1
    · have hcancel : w.cancel other = w := by simp only [cancel, hsub, if_neg hpending]
      rw [hcancel]
      exact .rests hsub (by rintro ⟨⟩) (fun _ => Standing.isPending_iff.not.mp hpending)
        fun _ hready => hready
  · refine moves_foreign (by rintro ⟨⟩) (fun h => hother (Option.some.inj h)) ?_ fun _ hready => ?_
    · unfold cancel
      split
      · exact hsub
      · split_ifs
        · rw [submissions_enqueue]
          exact (List.getElem?_set_ne hother).trans hsub
        · exact hsub
    · unfold cancel
      split
      · exact hready
      · split_ifs
        · exact subset_enqueue _ _ hready
        · exact hready

theorem notify_spec (w : World σ τ) (n : Nat) :
    (w.notify n).submissions = w.submissions ∧ (w.notify n).ready = w.ready := by
  unfold notify
  split <;> exact ⟨rfl, rfl⟩

variable (T) in
/-- All that an act can make of a submission. -/
theorem moves_perform (act : Act σ) (hsub : w.submissions[ticket]? = some sub) :
    Moves T w act ticket sub (w.perform T act) := by
  cases act with
  | submit c typed => exact moves_submit c typed hsub
  | turn now other => exact moves_turn other hsub
  | race now other => exact moves_race other hsub
  | tearDown other => exact moves_tearDown other hsub
  | expire timer => exact moves_expire timer hsub
  | cancel other => exact moves_cancel other hsub
  | notify n =>
    obtain ⟨hsubmissions, hready⟩ := notify_spec w n
    refine moves_foreign (by rintro ⟨⟩) (by rintro ⟨⟩) ?_ fun _ hqueued => ?_
    · rwa [perform, hsubmissions]
    · rwa [perform, hready]
  | poll | wait | register | release | drift =>
    exact moves_foreign (by rintro ⟨⟩) (by rintro ⟨⟩) hsub fun _ hready => hready

end Moves

end World

end Timeslice
