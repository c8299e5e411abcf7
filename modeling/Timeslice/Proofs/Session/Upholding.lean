import Timeslice.Proofs.Session.Ending

/-!
# What runs uphold

What the turns of tasks keep of the transport's state and of the tasks themselves holds throughout
every run of a world, in any order of acts. What others do to the transport has to keep it too.
-/

namespace Timeslice.World

variable {σ τ : Type} {T : Transport σ τ} {P : σ → Prop} {R : Command → Task τ → Prop}
  {w : World σ τ} {act : Act σ}

/-- From states as they should be, turns and drops of tasks lead to such states, and turns leave the
tasks as they should be. -/
structure Sustains (T : Transport σ τ) (P : σ → Prop) (R : Command → Task τ → Prop) : Prop where
  start : ∀ c, R c .start
  turn : ∀ settings c state task, P state → R c task →
    P (task.run T settings c state).state ∧
      R c ⟨(task.run T settings c state).stage, (task.run T settings c state).flights, []⟩
  wake : ∀ c task slot, R c task → R c { task with woken := task.woken ++ [slot] }
  drop : ∀ state (task : Task τ), P state → P (Turn.abandonAll T state task.flights)

theorem sustains_of_keeps {Q : Command → τ → Prop} (h : T.Keeps P Q fun _ => True) :
    Sustains T P fun c task => ∀ f ∈ task.flights, Q c f.taken where
  start _ := by rintro f ⟨⟩
  turn settings c state task hstate hflights :=
    have hrun : (task.run T settings c state).Kept P Q c :=
      Turn.kept_run h trivial hstate hflights
    ⟨hrun.state, hrun.flights⟩
  wake _ _ _ hflights := hflights
  drop _ task hstate := Turn.abandonAll_keeps h hstate task.flights

structure Upholds (P : σ → Prop) (R : Command → Task τ → Prop) (w : World σ τ) : Prop where
  state : P w.state
  tasks : w.Tasked R

theorem upholds_start {state : σ} (h : P state) (settings : Settings) :
    (start settings state : World σ τ).Upholds P R :=
  ⟨h, fun ticket sub task hsub => by simp [start] at hsub⟩

namespace Upholds

theorem state_of_owner (h : w.Upholds P R) (hT : Sustains T P R) {ticket : Nat}
    (howner : act.owner = some ticket) : P (w.perform T act).state := by
  cases hsub : w.submissions[ticket]? with
  | none =>
    rw [state_perform_of_none hsub howner]
    exact h.state
  | some sub =>
    cases moves_perform T act hsub with
    | rests _ state =>
      rw [state howner]
      exact h.state
    | runs task had _ _ state =>
      rw [state]
      exact (hT.turn _ _ _ task h.state (h.tasks ticket sub task hsub had)).1
    | drops task _ _ state =>
      rw [state]
      exact hT.drop _ task h.state
    | wakes _ _ _ foreign =>
      rw [foreign.1] at howner
      cases howner
    | cancels _ owner =>
      rw [owner] at howner
      cases howner

theorem tasks_perform (h : w.Upholds P R) (hT : Sustains T P R) (act : Act σ) :
    (w.perform T act).Tasked R :=
  Tasked.perform h.tasks hT.start (fun c task htask _ => (hT.turn _ c _ task h.state htask).2) hT.wake
    act

theorem perform (h : w.Upholds P R) (hT : Sustains T P R)
    (hdrift : ∀ f, act = .drift f → P (f w.state)) : (w.perform T act).Upholds P R := by
  refine ⟨?_, h.tasks_perform hT act⟩
  cases howner : act.owner with
  | some ticket => exact h.state_of_owner hT howner
  | none =>
    by_cases hother : ∃ f, act = .drift f
    · obtain ⟨f, rfl⟩ := hother
      exact hdrift f rfl
    · rw [state_perform_of_owner_eq_none howner (not_exists.mp hother)]
      exact h.state

theorem run (h : w.Upholds P R) (hT : Sustains T P R) {acts : List (Act σ)}
    (hdrift : ∀ f, .drift f ∈ acts → ∀ s, P s → P (f s)) : (w.run T acts).Upholds P R :=
  run_induction (P := fun w => w.Upholds P R) h fun w _ hact hw =>
    hw.perform hT fun f hf => hdrift f (hf ▸ hact) w.state hw.state

end Upholds

end Timeslice.World
