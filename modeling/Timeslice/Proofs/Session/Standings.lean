import Timeslice.Proofs.Session.Courses
import Timeslice.Proofs.Session.Ending

/-!
# How a submission stands by its course

The part of the log that a submission has to itself is what the log gains on the turns of its task. In
every run it tells how far the command has come, and the submission stands as the course says, unless
it has been cancelled or its task has been torn down.
-/

namespace Timeslice

variable {σ τ : Type}

namespace World

theorem settings_absorb {w : World σ τ} {now ticket : Nat} {sub : Submission τ} {t : Turn σ τ} :
    (w.absorb now ticket sub t).settings = w.settings := by
  unfold absorb
  split <;> rfl

theorem settings_turn (T : Transport σ τ) (w : World σ τ) (now ticket : Nat) :
    (w.turn T now ticket).settings = w.settings := by
  unfold turn
  split
  · rfl
  · split
    · rfl
    · split_ifs
      · exact settings_absorb
      · rfl

theorem settings_race (T : Transport σ τ) (w : World σ τ) (now ticket : Nat) :
    (w.race T now ticket).settings = w.settings := by
  unfold race
  split
  · rfl
  · split
    · rfl
    · exact settings_absorb

theorem settings_enqueue (w : World σ τ) (ticket : Nat) :
    (w.enqueue ticket).settings = w.settings := by
  unfold enqueue
  split_ifs <;> rfl

theorem settings_perform (T : Transport σ τ) (w : World σ τ) (act : Act σ) :
    (w.perform T act).settings = w.settings := by
  cases act with
  | submit | poll | wait | register | release | drift => rfl
  | turn now ticket => exact settings_turn T { w with ready := w.ready.erase ticket } now ticket
  | race now ticket => exact settings_race T w now ticket
  | tearDown ticket =>
    rw [perform, tearDown]
    split
    · rfl
    · split <;> rfl
  | expire timer =>
    rw [perform, expire]
    split
    · rfl
    · split
      · rfl
      · exact settings_enqueue _ timer.ticket
  | cancel ticket =>
    rw [perform, cancel]
    split
    · rfl
    · split_ifs
      · exact settings_enqueue _ ticket
      · rfl
  | notify n =>
    rw [perform, notify]
    split <;> rfl

theorem settings_record (T : Transport σ τ) (w : World (σ × Log) (Nat × τ)) (acts : List (Act σ)) :
    (w.record T acts).settings = w.settings :=
  run_induction (P := fun w' => w'.settings = w.settings) rfl
    fun w' act _ hw => (settings_perform T.logged w' act).trans hw

def gain (T : Transport σ τ) (w : World (σ × Log) (Nat × τ)) (act : Act σ) : Log :=
  (w.perform T.logged act.logged).state.2.drop w.state.2.length

/-- What the log gains on the turns of a submission's task. -/
def own (T : Transport σ τ) (ticket : Nat) (w : World (σ × Log) (Nat × τ)) : List (Act σ) → Log
  | [] => []
  | act :: acts =>
    (if act.owner = some ticket then w.gain T act else []) ++
      (w.perform T.logged act.logged).own T ticket acts

variable {T : Transport σ τ} {w : World (σ × Log) (Nat × τ)} {ticket : Nat} {act : Act σ}

theorem gain_eq {new : Log} (h : (w.perform T.logged act.logged).state.2 = w.state.2 ++ new) :
    w.gain T act = new := by
  rw [gain, h, List.drop_left]

theorem own_append (w : World (σ × Log) (Nat × τ)) (past rest : List (Act σ)) :
    w.own T ticket (past ++ rest) = w.own T ticket past ++ (w.record T past).own T ticket rest := by
  induction past generalizing w with
  | nil => rfl
  | cons act past ih =>
    rw [List.cons_append, own, own, ih, List.append_assoc]
    rfl

theorem own_concat (w : World (σ × Log) (Nat × τ)) (past : List (Act σ)) (act : Act σ) :
    w.own T ticket (past ++ [act]) = w.own T ticket past ++
      if act.owner = some ticket then (w.record T past).gain T act else [] := by
  rw [own_append, own, own, List.append_nil]

end World

/-- How a submission stands whose task has sent these requests and heard these answers. -/
inductive Submission.Stands (settings : Settings) (requests : List Request)
    (answers : List (Nat × Answer)) (state : σ × Log) (sub : Submission (Nat × τ)) : Prop where
  | goesOn {task : Task (Nat × τ)} (had : sub.task = some task)
    (course : (⟨state, task.stage, task.flights, [], none⟩ : Turn (σ × Log) (Nat × τ)).Course
      settings sub.command requests answers)
    (standing : sub.standing = .pending ∨ sub.standing = .cancelled)
  | ended {t : Turn (σ × Log) (Nat × τ)} (gone : sub.task = none) (log : t.state.2 <+: state.2)
    (course : t.Course settings sub.command requests answers)
    (standing : sub.standing = .cancelled ∨
      t.outcome = none ∧ sub.standing = .failed (sub.command.failure .aborted) ∨
      ∃ outcome, t.outcome = some outcome ∧
        sub.standing = sub.command.conclude sub.typed outcome)

namespace Submission.Stands

variable {T : Transport σ τ} {settings : Settings} {requests : List Request}
  {answers : List (Nat × Answer)} {state state' : σ × Log} {sub : Submission (Nat × τ)}
  {task : Task (Nat × τ)}

theorem start (settings : Settings) (state : σ × Log) (c : Command) (typed : Bool) :
    (⟨c, typed, .pending, some .start⟩ : Submission (Nat × τ)).Stands settings [] [] state :=
  .goesOn rfl (.unsent rfl rfl rfl rfl rfl) (.inl rfl)

theorem mono (h : sub.Stands settings requests answers state) (hlog : state.2 <+: state'.2) :
    sub.Stands settings requests answers state' := by
  cases h with
  | goesOn had course standing => exact .goesOn had (course.resume rfl hlog) standing
  | ended gone log course standing => exact .ended gone (log.trans hlog) course standing

theorem course_of_task (h : sub.Stands settings requests answers state) (had : sub.task = some task) :
    (⟨state, task.stage, task.flights, [], none⟩ : Turn (σ × Log) (Nat × τ)).Course settings
        sub.command requests answers ∧
      (sub.standing = .pending ∨ sub.standing = .cancelled) := by
  cases h with
  | goesOn had' course standing =>
    obtain rfl := Option.some.inj (had.symm.trans had')
    exact ⟨course, standing⟩
  | ended gone =>
    rw [gone] at had
    cases had

theorem after (h : sub.Stands settings requests answers state) (had : sub.task = some task) :
    ∃ new : Log, (task.run T.logged settings sub.command state).state.2 = state.2 ++ new ∧
      (sub.after (task.run T.logged settings sub.command state)).Stands settings
        (requests ++ new.requests) (answers ++ new.answers)
        (task.run T.logged settings sub.command state).state := by
  obtain ⟨hcourse, hstanding⟩ := h.course_of_task had
  obtain ⟨new, hlog, hcourse'⟩ := Task.course_run T hcourse
  refine ⟨new, hlog, ?_⟩
  set t := task.run T.logged settings sub.command state
  cases houtcome : t.outcome with
  | none =>
    rw [Submission.after_of_none houtcome]
    exact .goesOn rfl (hcourse'.resume houtcome (List.prefix_refl _)) hstanding
  | some outcome =>
    rw [Submission.after_of_some houtcome]
    refine .ended (t := t) rfl (List.prefix_refl _) hcourse' ?_
    rcases hstanding with hpending | hcancelled
    · exact .inr (.inr ⟨outcome, houtcome, by rw [hpending]; rfl⟩)
    · exact .inl (by rw [hcancelled]; rfl)

theorem withoutTask (h : sub.Stands settings requests answers state) (had : sub.task = some task)
    (hlog : state.2 <+: state'.2) :
    sub.withoutTask.Stands settings requests answers state' := by
  obtain ⟨hcourse, hstanding⟩ := h.course_of_task had
  refine .ended rfl hlog hcourse ?_
  rcases hstanding with hpending | hcancelled
  · exact .inr (.inl ⟨rfl, by rw [Submission.withoutTask, hpending]; rfl⟩)
  · exact .inl (by rw [Submission.withoutTask, hcancelled]; rfl)

theorem woken (h : sub.Stands settings requests answers state) (had : sub.task = some task)
    (slot : Nat) :
    ({ sub with task := some { task with woken := task.woken ++ [slot] } } :
      Submission (Nat × τ)).Stands settings requests answers state := by
  obtain ⟨hcourse, hstanding⟩ := h.course_of_task had
  exact .goesOn rfl hcourse hstanding

theorem cancelled (h : sub.Stands settings requests answers state) :
    ({ sub with standing := .cancelled } : Submission (Nat × τ)).Stands settings requests answers
      state := by
  cases h with
  | goesOn had course => exact .goesOn had course (.inr rfl)
  | ended gone log course => exact .ended gone log course (.inl rfl)

end Submission.Stands

namespace World

variable {T : Transport σ τ} {settings : Settings} {w : World (σ × Log) (Nat × τ)} {ticket : Nat}
  {act : Act σ} {own : Log}

/-- The submission stands by what it has of the log, and has nothing of the log before it is there. -/
structure StandsBy (w : World (σ × Log) (Nat × τ)) (ticket : Nat) (own : Log) : Prop where
  stands : ∀ sub, w.submissions[ticket]? = some sub →
    sub.Stands w.settings own.requests own.answers w.state
  empty : w.submissions[ticket]? = none → own = []

theorem submissions_none_of_perform {T : Transport σ τ} {w : World σ τ} {act : Act σ}
    (h : (w.perform T act).submissions[ticket]? = none) : w.submissions[ticket]? = none := by
  cases hsub : w.submissions[ticket]? with
  | none => rfl
  | some sub =>
    obtain ⟨sub', hsub', -⟩ := (moves_perform T act hsub).exists_follows
    rw [hsub'] at h
    cases h

theorem gained_eq_nil
    (hstate : act.owner = some ticket → (w.perform T.logged act.logged).state = w.state) :
    (if act.owner = some ticket then w.gain T act else []) = [] := by
  split_ifs with howner
  · exact gain_eq (by rw [hstate howner, List.append_nil])
  · rfl

theorem StandsBy.perform (h : w.StandsBy ticket own) (T : Transport σ τ) (act : Act σ) :
    (w.perform T.logged act.logged).StandsBy ticket
      (own ++ if act.owner = some ticket then w.gain T act else []) := by
  have hlog := log_perform T w act
  have howner : act.logged.owner = act.owner := owner_logged act
  have hsettings := settings_perform T.logged w act.logged
  cases hsub : w.submissions[ticket]? with
  | none =>
    rw [gained_eq_nil fun hown => state_perform_of_none hsub (howner.trans hown), List.append_nil,
      h.empty hsub]
    refine ⟨fun sub hfresh => ?_, fun _ => rfl⟩
    obtain ⟨c, typed, standing, task⟩ := sub
    obtain ⟨rfl, rfl⟩ : standing = .pending ∧ task = some .start := fresh_perform hsub hfresh
    exact Submission.Stands.start _ _ c typed
  | some sub =>
    have hstands := h.stands sub hsub
    have hnone : (w.perform T.logged act.logged).submissions[ticket]? = none →
        own ++ (if act.owner = some ticket then w.gain T act else []) = [] := by
      intro hgone
      rw [submissions_none_of_perform hgone] at hsub
      cases hsub
    have hmove := moves_perform T.logged act.logged hsub
    refine ⟨fun sub' hsub' => ?_, hnone⟩
    rw [hsettings]
    cases hmove with
    | rests submission state =>
      obtain rfl := Option.some.inj (submission.symm.trans hsub')
      rw [gained_eq_nil fun hown => state (howner.trans hown), List.append_nil]
      exact hstands.mono hlog
    | runs task had owner _ state submission =>
      obtain rfl := Option.some.inj (submission.symm.trans hsub')
      obtain ⟨new, hnew, hafter⟩ := hstands.after (T := T) had
      rw [if_pos (howner.symm.trans owner), gain_eq (by rw [state, hnew]), Log.requests_append,
        Log.answers_append, state]
      exact hafter
    | drops task had owner state submission =>
      obtain rfl := Option.some.inj (submission.symm.trans hsub')
      have hdropped : (w.perform T.logged act.logged).state.2 =
          w.state.2 ++ (Flight.numbers task.flights).map .dropped := by
        rw [state, Turn.abandonAll_numbers]
      rw [if_pos (howner.symm.trans owner), gain_eq hdropped, Log.requests_append,
        Log.answers_append, Log.requests_dropped, Log.answers_dropped, List.append_nil,
        List.append_nil]
      exact hstands.withoutTask had hlog
    | wakes task slot had foreign _ submission =>
      obtain rfl := Option.some.inj (submission.symm.trans hsub')
      rw [if_neg (by rw [← howner, foreign.1]; simp), List.append_nil]
      exact (hstands.woken had slot).mono hlog
    | cancels _ owner _ _ submission =>
      obtain rfl := Option.some.inj (submission.symm.trans hsub')
      rw [if_neg (by rw [← howner, owner]; simp), List.append_nil]
      exact hstands.cancelled.mono hlog

/-- In every run each submission stands by what it has of the log. -/
theorem standsBy_record (T : Transport σ τ) (settings : Settings) (state : σ) (ticket : Nat)
    (acts : List (Act σ)) :
    ((start settings (state, [])).record T acts).StandsBy ticket
      ((start settings (state, [])).own T ticket acts) := by
  induction acts using List.reverseRecOn with
  | nil => exact ⟨fun sub hsub => by simp [record, run, start] at hsub, fun _ => rfl⟩
  | append_singleton acts act ih =>
    have hrecord : ((start settings (state, [])).record T acts).perform T.logged act.logged =
        (start settings (state, [])).record T (acts ++ [act]) := (record_append acts [act]).symm
    rw [own_concat, ← hrecord]
    exact ih.perform T act

end World

end Timeslice
