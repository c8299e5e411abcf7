import Timeslice.Proofs.Session.Following

/-!
# Views of a world

A view forgets part of a world: of the transport's state, of what is in flight, or of which
submissions are typed. If the turns of the tasks go the same way under the view, so does all that
happens in the world.
-/

namespace Timeslice

/-- What is seen of a state, of a request in flight and of whether a submission is typed. -/
structure View (σ τ σ' τ' : Type) where
  state : σ → σ'
  flight : Flight τ → Flight τ'
  typed : Bool → Bool

namespace View

open World (Act)

variable {σ τ σ' τ' : Type} {V : View σ τ σ' τ'} {T : Transport σ τ} {T' : Transport σ' τ'}
  {P : Command → Task τ → Prop}

def task (V : View σ τ σ' τ') (task : Task τ) : Task τ' :=
  ⟨task.stage, task.flights.map V.flight, task.woken⟩

def turn (V : View σ τ σ' τ') (t : Turn σ τ) : Turn σ' τ' :=
  ⟨V.state t.state, t.stage, t.flights.map V.flight, t.sleeps, t.outcome⟩

def submission (V : View σ τ σ' τ') (sub : Submission τ) : Submission τ' :=
  ⟨sub.command, V.typed sub.typed, sub.standing, sub.task.map V.task⟩

def world (V : View σ τ σ' τ') (w : World σ τ) : World σ' τ' :=
  ⟨w.settings, V.state w.state, w.submissions.map V.submission, w.ready, w.timers, w.callbacks,
    w.released⟩

/-- The second act is the first one as the view shows it. -/
inductive Shows (V : View σ τ σ' τ') : Act σ → Act σ' → Prop where
  | submit (c : Command) (typed : Bool) : V.Shows (.submit c typed) (.submit c (V.typed typed))
  | turn (now ticket : Nat) : V.Shows (.turn now ticket) (.turn now ticket)
  | race (now ticket : Nat) : V.Shows (.race now ticket) (.race now ticket)
  | tearDown (ticket : Nat) : V.Shows (.tearDown ticket) (.tearDown ticket)
  | expire (timer : Timer) : V.Shows (.expire timer) (.expire timer)
  | cancel (ticket : Nat) : V.Shows (.cancel ticket) (.cancel ticket)
  | poll (ticket : Nat) : V.Shows (.poll ticket) (.poll ticket)
  | wait (ticket : Nat) : V.Shows (.wait ticket) (.wait ticket)
  | register (ticket : Nat) : V.Shows (.register ticket) (.register ticket)
  | release (ticket : Nat) : V.Shows (.release ticket) (.release ticket)
  | notify (n : Nat) : V.Shows (.notify n) (.notify n)
  | drift {f : σ → σ} {f' : σ' → σ'} (h : ∀ s, V.state (f s) = f' (V.state s)) :
      V.Shows (.drift f) (.drift f')

/-- The turns of the tasks with the property go the same way under the view, and dropping a task
does. -/
structure Respects (V : View σ τ σ' τ') (T : Transport σ τ) (T' : Transport σ' τ')
    (P : Command → Task τ → Prop) : Prop where
  run : ∀ settings c state task, P c task →
    V.turn (task.run T settings c state) = (V.task task).run T' settings c (V.state state)
  conclude : ∀ settings c state task outcome typed, P c task →
    (task.run T settings c state).outcome = some outcome →
    c.conclude (V.typed typed) outcome = c.conclude typed outcome
  abandon : ∀ state flights, V.state (Turn.abandonAll T state flights) =
    Turn.abandonAll T' (V.state state) (flights.map V.flight)

variable {w : World σ τ} {now ticket : Nat} {sub : Submission τ}

theorem submission_world (w : World σ τ) (ticket : Nat) :
    (V.world w).submissions[ticket]? = (w.submissions[ticket]?).map V.submission :=
  List.getElem?_map ..

theorem task_submission : (V.submission sub).task = sub.task.map V.task := rfl

theorem world_enqueue (w : World σ τ) (ticket : Nat) :
    V.world (w.enqueue ticket) = (V.world w).enqueue ticket := by
  have hready : (V.world w).ready = w.ready := rfl
  unfold World.enqueue
  rw [hready]
  split_ifs <;> rfl

theorem world_absorb {t : Turn σ τ}
    (h : ∀ outcome, t.outcome = some outcome →
      sub.command.conclude (V.typed sub.typed) outcome = sub.command.conclude sub.typed outcome) :
    V.world (w.absorb now ticket sub t) =
      (V.world w).absorb now ticket (V.submission sub) (V.turn t) := by
  have hview : (V.turn t).outcome = t.outcome := rfl
  unfold World.absorb
  rw [hview]
  cases houtcome : t.outcome with
  | none =>
    simp only [world, List.map_set]
    rfl
  | some outcome =>
    have hconclude : (V.submission sub).command.conclude (V.submission sub).typed outcome =
        sub.command.conclude sub.typed outcome :=
      h outcome houtcome
    simp only [world, List.map_set, hconclude]
    rfl

namespace Respects

theorem world_absorb_run (h : V.Respects T T' P) {task : Task τ} (htask : P sub.command task) :
    V.world (w.absorb now ticket sub (task.run T w.settings sub.command w.state)) =
      (V.world w).absorb now ticket (V.submission sub)
        ((V.task task).run T' w.settings sub.command (V.state w.state)) := by
  rw [world_absorb fun outcome => h.conclude _ _ _ task outcome sub.typed htask,
    h.run _ _ _ task htask]

theorem world_drop (h : V.Respects T T' P) (task : Task τ) :
    V.world (w.drop T ticket sub task) =
      (V.world w).drop T' ticket (V.submission sub) (V.task task) := by
  simp only [World.drop, world, List.map_set, h.abandon]
  rfl

theorem world_turn (h : V.Respects T T' P) (hw : w.Tasked P) (now ticket : Nat) :
    V.world (w.turn T now ticket) = (V.world w).turn T' now ticket := by
  unfold World.turn
  rw [submission_world]
  cases hsub : w.submissions[ticket]? with
  | none => rfl
  | some sub =>
    have hstanding : (V.submission sub).standing = sub.standing := rfl
    simp only [Option.map_some, task_submission, hstanding]
    cases htask : sub.task with
    | none => rfl
    | some task =>
      dsimp only [Option.map_some]
      split_ifs
      · exact h.world_absorb_run (hw ticket sub task hsub htask)
      · exact h.world_drop task

theorem world_race (h : V.Respects T T' P) (hw : w.Tasked P) (now ticket : Nat) :
    V.world (w.race T now ticket) = (V.world w).race T' now ticket := by
  unfold World.race
  rw [submission_world]
  cases hsub : w.submissions[ticket]? with
  | none => rfl
  | some sub =>
    simp only [Option.map_some, task_submission]
    cases htask : sub.task with
    | none => rfl
    | some task => exact h.world_absorb_run (hw ticket sub task hsub htask)

theorem world_tearDown (h : V.Respects T T' P) (w : World σ τ) (ticket : Nat) :
    V.world (w.tearDown T ticket) = (V.world w).tearDown T' ticket := by
  unfold World.tearDown
  rw [submission_world]
  cases w.submissions[ticket]? with
  | none => rfl
  | some sub =>
    simp only [Option.map_some, task_submission]
    cases sub.task with
    | none => rfl
    | some task => exact h.world_drop task

end Respects

theorem world_expire (w : World σ τ) (timer : Timer) :
    V.world (w.expire timer) = (V.world w).expire timer := by
  unfold World.expire
  rw [submission_world]
  cases w.submissions[timer.ticket]? with
  | none => rfl
  | some sub =>
    simp only [Option.map_some, task_submission]
    cases sub.task with
    | none => rfl
    | some task =>
      dsimp only [Option.map_some]
      rw [world_enqueue]
      simp only [world, List.map_set]
      rfl

theorem world_cancel (w : World σ τ) (ticket : Nat) :
    V.world (w.cancel ticket) = (V.world w).cancel ticket := by
  unfold World.cancel
  rw [submission_world]
  cases w.submissions[ticket]? with
  | none => rfl
  | some sub =>
    have hstanding : (V.submission sub).standing = sub.standing := rfl
    simp only [Option.map_some, hstanding]
    split_ifs
    · rw [world_enqueue]
      simp only [world, List.map_set]
      rfl
    · rfl

theorem standing_world (w : World σ τ) (ticket : Nat) :
    (V.world w).standing ticket = w.standing ticket := by
  rw [World.standing, World.standing, submission_world, Option.elim_map]
  rfl

theorem report?_world (w : World σ τ) (ticket : Nat) :
    (V.world w).report? ticket = w.report? ticket := by
  unfold World.report?
  rw [submission_world]
  cases w.submissions[ticket]? with
  | none => rfl
  | some sub =>
    have hattends : (V.world w).attends ticket (V.submission sub) = w.attends ticket sub :=
      congrArg (!w.released.contains ticket || ·) Option.isSome_map
    simp only [Option.map_some, Option.bind_some, hattends]
    rfl

theorem world_notify (w : World σ τ) (n : Nat) : V.world (w.notify n) = (V.world w).notify n := by
  have hhand (callback : Callback) : (V.world w).hand callback = w.hand callback := by
    unfold World.hand
    rw [report?_world]
  have hcallbacks : (V.world w).callbacks = w.callbacks := rfl
  unfold World.notify
  rw [hcallbacks]
  cases w.callbacks[n]? with
  | none => rfl
  | some callback =>
    simp only [hhand]
    rfl

theorem Respects.world_perform (h : V.Respects T T' P) (hw : w.Tasked P) {act : Act σ} {act' : Act σ'}
    (hact : V.Shows act act') : V.world (w.perform T act) = (V.world w).perform T' act' := by
  cases hact with
  | submit c typed =>
    simp only [World.perform, World.submit, world, List.map_append, List.length_map]
    rfl
  | turn now ticket =>
    exact h.world_turn (w := { w with ready := w.ready.erase ticket }) hw now ticket
  | race now ticket => exact h.world_race hw now ticket
  | tearDown ticket => exact h.world_tearDown w ticket
  | expire timer => exact world_expire { w with timers := w.timers.erase timer } timer
  | cancel ticket => exact world_cancel w ticket
  | notify n => exact world_notify w n
  | poll | wait | register | release => rfl
  | drift hf => simp only [World.perform, world, hf]

theorem observe_world (w : World σ τ) {act : Act σ} {act' : Act σ'} (hact : V.Shows act act') :
    (V.world w).observe act' = w.observe act := by
  cases hact with
  | cancel ticket =>
    simp only [World.observe, World.isCancelling, submission_world, Option.any_map]
    rfl
  | poll ticket => simp only [World.observe, standing_world]
  | wait ticket => simp only [World.observe, report?_world]
  | notify n =>
    simp only [World.observe, report?_world]
    rfl
  | submit | turn | race | tearDown | expire | register | release | drift => rfl

/-- A run goes the same way under the view, and shows the same. -/
theorem Respects.world_run (h : V.Respects T T' P) (hP : World.Lasts T P) (hw : w.Tasked P)
    {acts : List (Act σ)} {acts' : List (Act σ')} (hacts : List.Forall₂ V.Shows acts acts') :
    V.world (w.run T acts) = (V.world w).run T' acts' ∧
      (V.world w).observed T' acts' = w.observed T acts := by
  induction hacts generalizing w with
  | nil => exact ⟨rfl, rfl⟩
  | @cons act act' acts acts' hact _ ih =>
    obtain ⟨hrun, hobserved⟩ := ih (hP.perform hw act)
    rw [World.run_cons, World.run_cons, World.observed, World.observed, observe_world w hact,
      ← h.world_perform hw hact]
    exact ⟨hrun, by rw [hobserved]⟩

end View

end Timeslice
