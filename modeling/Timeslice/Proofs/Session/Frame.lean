import Mathlib.Data.List.Basic
import Timeslice.Session.World

/-!
# What a turn leaves alone

A turn of one task, or the end of one of its delays, leaves the other submissions and their delays as
they are.
-/

namespace Timeslice.World

variable {σ τ : Type} {w : World σ τ} {ticket other : Nat} {sub : Submission τ}
  {T : Transport σ τ} {now : Nat}

theorem submission_absorb {t : Turn σ τ}
    {outcome : Outcome} (now : Nat) (hsub : w.submissions[ticket]? = some sub)
    (hpending : sub.standing = .pending) (houtcome : t.outcome = some outcome) :
    (w.absorb now ticket sub t).submissions[ticket]? =
        some { sub with standing := sub.command.conclude sub.typed outcome, task := none } := by
  have hlt : ticket < w.submissions.length := (List.getElem?_eq_some_iff.mp hsub).1
  simp only [absorb, houtcome]
  rw [List.getElem?_set_self hlt, hpending]
  rfl

theorem turn_eq_self (hsub : w.submissions[ticket]? = some sub) (htask : sub.task = none)
    (T : Transport σ τ) (now : Nat) : w.turn T now ticket = w := by
  simp only [turn, hsub, htask]

theorem turn_eq_absorb {task : Task τ} (hsub : w.submissions[ticket]? = some sub)
    (htask : sub.task = some task) (hpending : sub.standing = .pending) (T : Transport σ τ)
    (now : Nat) :
    w.turn T now ticket = w.absorb now ticket sub (task.run T w.settings sub.command w.state) := by
  simp only [turn, hsub, htask, if_pos (Standing.isPending_iff.mpr hpending)]

theorem turn_eq_drop {task : Task τ} (hsub : w.submissions[ticket]? = some sub)
    (htask : sub.task = some task) (hsettled : sub.standing ≠ .pending) (T : Transport σ τ)
    (now : Nat) : w.turn T now ticket = w.drop T ticket sub task := by
  simp only [turn, hsub, htask, if_neg (Standing.isPending_iff.not.mpr hsettled)]

theorem expire_eq_self (hsub : w.submissions[ticket]? = some sub) (htask : sub.task = none)
    {timer : Timer} (hticket : timer.ticket = ticket) : w.expire timer = w := by
  simp only [expire, hticket, hsub, htask]

def delaysOf (ticket : Nat) (timers : List Timer) : List Timer :=
  timers.filter fun timer => timer.ticket == ticket

structure SameFor (ticket : Nat) (w w' : World σ τ) : Prop where
  settings : w'.settings = w.settings
  submission : w'.submissions[ticket]? = w.submissions[ticket]?
  delays : delaysOf ticket w'.timers = delaysOf ticket w.timers

theorem delaysOf_dropTimers (hne : other ≠ ticket) (timers : List Timer) :
    delaysOf ticket (dropTimers other timers) = delaysOf ticket timers := by
  rw [delaysOf, dropTimers, List.filter_filter]
  refine List.filter_congr fun timer _ => ?_
  by_cases h : timer.ticket = ticket
  · simp [h, hne.symm]
  · simp [h]

def beginning (now ticket : Nat) (sleeps : List (Nat × Nat)) : List Timer :=
  sleeps.map fun (slot, delay) => ⟨now + delay, ticket, slot⟩

theorem delaysOf_others (hne : other ≠ ticket) (sleeps : List (Nat × Nat)) :
    delaysOf ticket (beginning now other sleeps) = [] := by
  refine List.filter_eq_nil_iff.mpr fun timer htimer => ?_
  obtain ⟨p, -, rfl⟩ := List.mem_map.mp htimer
  simpa using hne

theorem delaysOf_own (ticket : Nat) (sleeps : List (Nat × Nat)) :
    delaysOf ticket (beginning now ticket sleeps) = beginning now ticket sleeps := by
  refine List.filter_eq_self.mpr fun timer htimer => ?_
  obtain ⟨p, -, rfl⟩ := List.mem_map.mp htimer
  simp

theorem sameFor_refl (ticket : Nat) (w : World σ τ) : SameFor ticket w w :=
  ⟨rfl, rfl, rfl⟩

theorem sameFor_absorb (hne : other ≠ ticket) (t : Turn σ τ) :
    SameFor ticket w (w.absorb now other sub t) := by
  unfold absorb
  split
  · exact ⟨rfl, List.getElem?_set_ne hne, delaysOf_dropTimers hne w.timers⟩
  · refine ⟨rfl, List.getElem?_set_ne hne, ?_⟩
    rw [delaysOf, List.filter_append]
    exact (congrArg _ (delaysOf_others hne _)).trans (List.append_nil _)

theorem sameFor_drop (hne : other ≠ ticket) (task : Task τ) :
    SameFor ticket w (w.drop T other sub task) :=
  ⟨rfl, List.getElem?_set_ne hne, delaysOf_dropTimers hne w.timers⟩

theorem sameFor_turn (hne : other ≠ ticket) : SameFor ticket w (w.turn T now other) := by
  unfold turn
  split
  · exact sameFor_refl ticket w
  · split
    · exact sameFor_refl ticket w
    · split_ifs
      · exact sameFor_absorb hne _
      · exact sameFor_drop hne _

theorem submission_turn (T : Transport σ τ) (now : Nat) (hsub : w.submissions[ticket]? = some sub)
    (hsettled : sub.standing ≠ .pending) :
    ∃ task, (w.turn T now ticket).submissions[ticket]? = some { sub with task := task } := by
  have hlt : ticket < w.submissions.length := (List.getElem?_eq_some_iff.mp hsub).1
  simp only [turn, hsub]
  split
  · exact ⟨sub.task, hsub⟩
  · rw [if_neg (Standing.isPending_iff.not.mpr hsettled), drop,
      Submission.withoutTask_of_settled hsettled]
    exact ⟨none, List.getElem?_set_self hlt⟩

theorem submission_expire {timer : Timer} (hsub : w.submissions[timer.ticket]? = some sub) :
    ∃ task, (w.expire timer).submissions[timer.ticket]? = some { sub with task := task } := by
  have hlt : timer.ticket < w.submissions.length := (List.getElem?_eq_some_iff.mp hsub).1
  simp only [expire, hsub]
  split
  · exact ⟨sub.task, hsub⟩
  · next task _ =>
    refine ⟨some { task with woken := task.woken ++ [timer.slot] }, ?_⟩
    unfold enqueue
    split_ifs <;> exact List.getElem?_set_self hlt

theorem sameFor_enqueue (ticket other : Nat) (w : World σ τ) :
    SameFor ticket w (w.enqueue other) := by
  unfold enqueue
  split_ifs <;> exact ⟨rfl, rfl, rfl⟩

theorem sameFor_expire {timer : Timer} (hne : timer.ticket ≠ ticket) :
    SameFor ticket w (w.expire timer) := by
  unfold expire
  split
  · exact sameFor_refl ticket w
  · next sub hsub =>
    split
    · exact sameFor_refl ticket w
    · next task htask =>
      have hsame := sameFor_enqueue ticket timer.ticket ({ w with
        submissions := w.submissions.set timer.ticket
          { sub with task := some { task with woken := task.woken ++ [timer.slot] } } })
      exact ⟨hsame.settings, hsame.submission.trans (List.getElem?_set_ne hne), hsame.delays⟩

theorem subset_enqueue (ticket : Nat) (w : World σ τ) : w.ready ⊆ (w.enqueue ticket).ready := by
  unfold enqueue
  split_ifs
  · exact List.Subset.refl _
  · exact List.subset_append_left _ _

theorem mem_enqueue (ticket : Nat) (w : World σ τ) : ticket ∈ (w.enqueue ticket).ready := by
  unfold enqueue
  split_ifs with h
  · exact List.contains_iff_mem.mp h
  · exact List.mem_append_right _ (List.mem_singleton_self ticket)

theorem subset_expire (timer : Timer) : w.ready ⊆ (w.expire timer).ready := by
  unfold expire
  split
  · exact List.Subset.refl _
  · next sub _ =>
    split
    · exact List.Subset.refl _
    · next task _ =>
      exact subset_enqueue timer.ticket { w with
        submissions := w.submissions.set timer.ticket
          { sub with task := some { task with woken := task.woken ++ [timer.slot] } } }

end Timeslice.World
