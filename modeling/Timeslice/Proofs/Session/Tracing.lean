import Timeslice.Proofs.Session.Standings

/-!
# The fan-outs of a world

Whatever happens in a world, a task that gathers answers began to do so with the rest of the turn in
which it heard the schema, and has been resumed on its turns since. So what holds of all fan-outs that
gather holds of those of every world, their log left out.
-/

namespace Timeslice

variable {σ τ : Type} {T : Transport σ τ} {settings : Settings} {c : Command}

/-- How far a task has come between two turns: it has sent nothing, has one request in flight or none,
or is a fan-out that gathers. -/
inductive Task.Traces (T : Transport σ τ) (settings : Settings) (c : Command) (task : Task τ) :
    Prop where
  | unsent (stage : task.stage = .unsent) (flights : task.flights = [])
  | opened (stage : task.stage = .opened) (flights : task.flights.length ≤ 1)
  | gathers {schema : Schema} {t : Turn (σ × Log) (Nat × τ)}
    (gathers : Gathers T settings c schema t) (waits : t.outcome = none)
    (stage : t.stage = task.stage) (flights : t.flights.map Flight.unlogged = task.flights)

inductive Turn.Traces (T : Transport σ τ) (settings : Settings) (c : Command) (t : Turn σ τ) :
    Prop where
  | opened (stage : t.stage = .opened) (flights : t.flights.length ≤ 1)
  | gathers {schema : Schema} {logged : Turn (σ × Log) (Nat × τ)}
    (gathers : Gathers T settings c schema logged) (unlogged : logged.unlogged = t)

namespace Turn

variable {t : Turn σ τ}

theorem Traces.task (h : t.Traces T settings c) (waits : t.outcome = none) :
    Task.Traces T settings c ⟨t.stage, t.flights, []⟩ := by
  cases h with
  | opened stage flights => exact .opened stage flights
  | gathers gathers unlogged =>
    subst unlogged
    exact .gathers gathers waits rfl rfl

/-- A turn before its fan-out sends anything: the command waits for the answer to its first request or
has an outcome, or the fan-out starts on the plan. -/
inductive Begins (settings : Settings) (c : Command) (t : Turn σ τ) : Prop where
  | opened (stage : t.stage = .opened) (flights : t.flights.length ≤ 1)
  | starts {schema : Schema} {plan : Plan} (plans : c.Plans settings schema plan)
    (eq : t = ⟨t.state, .gathering (.ofPlan plan), [], [], none⟩)

theorem Begins.stage_ne (h : t.Begins settings c) : t.stage ≠ .unsent := by
  cases h with
  | opened stage =>
    rw [stage]
    rintro ⟨⟩
  | starts _ eq =>
    rw [eq]
    rintro ⟨⟩

theorem begins_hear (state : σ) (slot : Nat) (taken : τ) :
    let t := (⟨state, .opened, [], [], none⟩ : Turn σ τ).hear T settings c slot taken
    t.Begins settings c ∧ t.sleeps = [] := by
  rcases hanswer : T.answer state taken with ⟨state', answer⟩
  simp only [hear, hanswer]
  cases answer with
  | broken | silent => exact ⟨.opened rfl (by simp), rfl⟩
  | reply r =>
    rcases c.receive_opened settings slot r with ⟨outcome, hreceive, -⟩ |
      ⟨schema, plan, -, hplans, hreceive⟩
    · simp only [advance, hreceive, and_true]
      exact .opened rfl (by simp)
    · simp only [advance, hreceive, and_true]
      exact .starts hplans rfl

theorem begins_openUp (state : σ) :
    ((⟨state, .unsent, [], [], none⟩ : Turn σ τ).openUp T settings c).Begins settings c := by
  rcases harrive : T.arrive state c.opening with ⟨state', intake⟩
  simp only [openUp, send, harrive]
  split_ifs
  · exact (begins_hear state' 0 intake.taken).1
  · exact .opened rfl (by simp)

theorem Begins.wake (h : t.Begins settings c) (hsleeps : t.sleeps = []) (slot : Nat) :
    (t.wake T settings c slot).Begins settings c ∧ (t.wake T settings c slot).sleeps = [] := by
  unfold Turn.wake
  split_ifs with hsome
  · exact ⟨h, hsleeps⟩
  · split
    · exact ⟨h, hsleeps⟩
    · next f hfind =>
      obtain ⟨state, stage, flights, sleeps, outcome⟩ := t
      cases h with
      | starts plans eq =>
        cases eq
        cases hfind
      | opened hstage hflights =>
        obtain rfl : outcome = none := by simpa using hsome
        cases hstage
        cases hsleeps
        have hmem := List.mem_of_find?_eq_some hfind
        obtain ⟨g, rfl⟩ : ∃ g, flights = [g] :=
          List.length_eq_one_iff.mp (Nat.le_antisymm hflights (List.length_pos_of_mem hmem))
        obtain rfl := List.mem_singleton.mp hmem
        have hland : [f].filter (fun f => f.slot != slot) = [] := by
          simpa using List.find?_some hfind
        simp only [hland]
        exact begins_hear state slot f.taken

theorem Begins.wakeAll (h : t.Begins settings c) (hsleeps : t.sleeps = []) (woken : List Nat) :
    (woken.foldl (Turn.wake T settings c) t).Begins settings c := by
  induction woken generalizing t with
  | nil => exact h
  | cons slot rest ih =>
    obtain ⟨hbegins, hnone⟩ := h.wake (T := T) hsleeps slot
    exact ih hbegins hnone

theorem Begins.finish (h : t.Begins settings c) :
    ((launch T settings c t.unsent t).close T).Traces T settings c := by
  cases h with
  | opened hstage hflights =>
    rw [launch_eq_self fun f _ hgathering => absurd (hstage.symm.trans hgathering) nofun]
    unfold close
    split_ifs
    · exact .opened hstage (Nat.zero_le 1)
    · exact .opened hstage hflights
  | @starts schema plan plans eq =>
    obtain ⟨⟨text, select, rfl, hplan⟩, hpieces⟩ := plans
    have hgather : (launch T settings (.query text (.select select)) t.unsent t).close T =
        gather T settings (.query text (.select select)) schema t.state := by
      rw [gather, advance_opened hplan, if_neg (by simpa using hpieces), ← eq]
    rw [hgather]
    exact .gathers (.start t.state) (unlogged_gather _ _)

end Turn

theorem Task.Traces.run {task : Task τ} (h : task.Traces T settings c) (state : σ) :
    (task.run T settings c state).Traces T settings c := by
  obtain ⟨stage, flights, woken⟩ := task
  cases h with
  | unsent hstage hflights =>
    cases hstage
    cases hflights
    unfold Task.run
    dsimp only
    rw [List.foldl_fixed' fun _ => rfl]
    exact (Turn.begins_openUp state).finish
  | opened hstage hflights =>
    cases hstage
    have hstart : (⟨state, .opened, flights, [], none⟩ : Turn σ τ).Begins settings c :=
      .opened rfl hflights
    have hwoken := hstart.wakeAll (T := T) rfl woken
    unfold Task.run
    dsimp only
    rw [Turn.openUp_eq_self fun _ => hwoken.stage_ne]
    exact hwoken.finish
  | gathers gathers waits hstage hflights =>
    cases hstage
    cases hflights
    exact .gathers (.resume gathers waits state woken) (Task.unlogged_run _ _)

namespace World

/-- In every run all tasks have come as far as their turns have brought them. -/
theorem traces_run (T : Transport σ τ) (settings : Settings) (state : σ) (acts : List (Act σ)) :
    ((start settings state).run T acts).Tasked (Task.Traces T settings) := by
  have hrun : ((start settings state).run T acts).settings = settings ∧
      ((start settings state).run T acts).Tasked (Task.Traces T settings) := by
    refine run_induction (P := fun w => w.settings = settings ∧ w.Tasked (Task.Traces T settings))
      ⟨rfl, fun ticket sub task hsub => by simp [start] at hsub⟩ fun w act _ hw => ?_
    obtain ⟨rfl, htasked⟩ := hw
    refine ⟨settings_perform T w act, htasked.perform (fun _ => .unsent rfl rfl)
      (fun c task htraces hgoes => (htraces.run w.state).task hgoes) (fun c task slot htraces => ?_) act⟩
    cases htraces with
    | unsent stage flights => exact .unsent stage flights
    | opened stage flights => exact .opened stage flights
    | gathers gathers waits stage flights => exact .gathers gathers waits stage flights
  exact hrun.2

/-- Every turn on which a task gathers answers, in every run, is a turn of a fan-out that gathers,
without its log. -/
theorem exists_gathers {state : σ} {acts : List (Act σ)} {ticket : Nat} {sub : Submission τ}
    {task : Task τ} {f : Fanout}
    (hsub : ((start settings state).run T acts).submissions[ticket]? = some sub)
    (htask : sub.task = some task)
    (hstage : (task.run T settings sub.command ((start settings state).run T acts).state).stage =
      .gathering f) :
    ∃ schema t, Gathers T settings sub.command schema t ∧
      t.unlogged = task.run T settings sub.command ((start settings state).run T acts).state := by
  cases (traces_run T settings state acts ticket sub task hsub htask).run
    ((start settings state).run T acts).state with
  | opened opened =>
    rw [hstage] at opened
    cases opened
  | gathers gathers unlogged => exact ⟨_, _, gathers, unlogged⟩

end World

end Timeslice
