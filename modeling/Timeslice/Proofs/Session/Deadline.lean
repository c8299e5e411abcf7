import Timeslice.Proofs.Session.Frame
import Timeslice.Proofs.Session.Serving
import Timeslice.Session.Basic

/-!
# When a query resolves

Each round of waiting hears at least one answer of a query that is served, and takes no longer than
the slowest answer. So the query resolves within as many rounds as it has requests.
-/

namespace Timeslice

namespace World

variable {σ τ : Type}

def deadline (x : Inquiry τ) (begun answered : Nat) : Nat :=
  begun + (answered + 1) * x.slowest

theorem deadline_mono (x : Inquiry τ) (begun : Nat) {m n : Nat} (h : m ≤ n) :
    deadline x begun m ≤ deadline x begun n :=
  Nat.add_le_add_left (Nat.mul_le_mul_right _ (Nat.succ_le_succ h)) _

theorem deadline_add (x : Inquiry τ) (begun answered : Nat) :
    deadline x begun answered + x.slowest = deadline x begun (answered + 1) := by
  rw [deadline, deadline, Nat.add_assoc, ← Nat.succ_mul]

/-- How the submission of a query that is served stands in a world in which the delays `ended` are
over and the tasks in the queue will have their turns. -/
inductive Answering (x : Inquiry τ) (ticket begun now : Nat) (ended : List Timer)
    (queue : List Nat) (w : World σ τ) : Prop where
  | fresh {typed : Bool}
    (sub : w.submissions[ticket]? = some ⟨x.command, typed, .pending, some .start⟩)
    (queued : ticket ∈ queue) (now_eq : now = begun)
    (idle : delaysOf ticket (ended ++ w.timers) = [])
  | underway {typed : Bool} {task : Task τ} {answered : Nat}
    (sub : w.submissions[ticket]? = some ⟨x.command, typed, .pending, some task⟩)
    (waits : x.Waits w.state task
      ((delaysOf ticket (ended ++ w.timers)).map (·.slot)) answered)
    (due : ∀ timer ∈ delaysOf ticket (ended ++ w.timers), timer.due ≤ deadline x begun answered)
    (woken : task.woken ≠ [] → ticket ∈ queue ∧ now ≤ deadline x begun answered)
  | resolved {typed : Bool} {result : ResultSet} (isResult : x.IsResult result)
    (sub : w.submissions[ticket]? = some ⟨x.command, typed, .resolved (.rows result), none⟩)
  | lost {sub : Submission τ} (fails : x.Fails) (sub_eq : w.submissions[ticket]? = some sub)
    (settled : sub.standing ≠ .pending) (unresolved : ∀ response, sub.standing ≠ .resolved response)

variable {x : Inquiry τ} {T : Transport σ τ} {P : σ → Prop} {Q : Command → τ → Prop}
  {A : Command → Prop} {w w' : World σ τ}
  {ticket begun now : Nat} {ended : List Timer} {queue rest : List Nat}

/-- Nothing changes for the query in a world in which its submission stands the same, and the order of
its delays does not matter. -/
theorem Answering.congr {ended' : List Timer} (h : Answering x ticket begun now ended queue w)
    (hsub : w'.submissions[ticket]? = w.submissions[ticket]?)
    (hdelays : (delaysOf ticket (ended' ++ w'.timers)).Perm (delaysOf ticket (ended ++ w.timers)))
    (hqueue : ticket ∈ queue → ticket ∈ rest) :
    Answering x ticket begun now ended' rest w' := by
  cases h with
  | fresh sub queued now_eq idle =>
    rw [idle] at hdelays
    exact .fresh (hsub.trans sub) (hqueue queued) now_eq hdelays.eq_nil
  | underway sub waits due woken =>
    exact .underway (hsub.trans sub) ((waits.withState w'.state).perm (hdelays.map _))
      (fun timer htimer => due timer (hdelays.mem_iff.mp htimer)) fun hwoken =>
        ⟨hqueue (woken hwoken).1, (woken hwoken).2⟩
  | resolved isResult sub => exact .resolved isResult (hsub.trans sub)
  | lost fails sub settled unresolved => exact .lost fails (hsub.trans sub) settled unresolved

theorem Answering.same (h : Answering x ticket begun now ended queue w)
    (hsame : SameFor ticket w w') (hqueue : ticket ∈ queue → ticket ∈ rest) :
    Answering x ticket begun now ended rest w' := by
  refine h.congr hsame.submission (List.Perm.of_eq ?_) hqueue
  have hrest := hsame.delays
  unfold delaysOf at hrest ⊢
  rw [List.filter_append, List.filter_append, hrest]

theorem Answering.at_rest (h : Answering x ticket begun now ended [] w) (time : Nat)
    (queue : List Nat) : Answering x ticket begun time ended queue w := by
  cases h with
  | fresh sub queued => cases queued
  | underway sub waits due woken =>
    exact .underway sub waits due fun hwoken => absurd (woken hwoken).1 List.not_mem_nil
  | resolved isResult sub => exact .resolved isResult sub
  | lost fails sub settled unresolved => exact .lost fails sub settled unresolved

/-- A turn that keeps the query on course is taken over. What it has sent must be answered by the
deadline. -/
theorem Answering.absorb {typed : Bool} {task : Task τ}
    (hsub : w.submissions[ticket]? = some ⟨x.command, typed, .pending, some task⟩)
    {t : Turn σ τ} {answered : Nat}
    (h : x.OnCourse t ((delaysOf ticket w.timers).map (·.slot)) answered)
    (hfull : t.outcome = none → ∀ f, t.stage = .gathering f →
      f.send? x.settings.concurrency.toNat = none)
    (hdue : ∀ timer ∈ delaysOf ticket w.timers, timer.due ≤ deadline x begun answered)
    (hsent : t.sleeps ≠ [] → now + x.slowest ≤ deadline x begun answered) :
    Answering x ticket begun now [] rest
      (w.absorb now ticket ⟨x.command, typed, .pending, some task⟩ t) := by
  have hlt : ticket < w.submissions.length := (List.getElem?_eq_some_iff.mp hsub).1
  rcases h with ⟨outcome, hsome, hconcludes⟩ | ⟨n, hn, hunderway⟩
  · have habsorb := submission_absorb now hsub rfl hsome
    rcases hconcludes with ⟨result, hresult, rfl⟩ | ⟨hfails, cause, rfl⟩
    · have hresolved : (w.absorb now ticket ⟨x.command, typed, .pending, some task⟩
          t).submissions[ticket]? = some ⟨x.command, typed, .resolved (.rows result), none⟩ := by
        rw [habsorb]
        simp [Command.conclude, Inquiry.command, Response.shape, Command.kind, CommandKind.shape]
      exact .resolved hresult hresolved
    · exact .lost hfails habsorb (by rintro ⟨⟩) (by rintro _ ⟨⟩)
  · have hnone := hunderway.awaits.outcome_eq
    have hdelays : delaysOf ticket (w.timers ++ beginning now ticket t.sleeps) =
        delaysOf ticket w.timers ++ beginning now ticket t.sleeps := by
      rw [delaysOf, List.filter_append]
      exact congrArg _ (delaysOf_own ticket t.sleeps)
    have hle := deadline_mono x begun hn
    have hwaits : x.Waits t.state ⟨t.stage, t.flights, []⟩
        ((delaysOf ticket ([] ++ (w.timers ++ beginning now ticket t.sleeps))).map (·.slot)) n := by
      rw [List.nil_append, hdelays, List.map_append, beginning, List.map_map]
      exact hunderway.waits (hfull hnone)
    simp only [World.absorb, hnone]
    refine .underway (List.getElem?_set_self hlt) hwaits ?_ fun hwoken => absurd rfl hwoken
    · intro timer htimer
      change timer ∈ delaysOf ticket ([] ++ (w.timers ++ beginning now ticket t.sleeps)) at htimer
      rw [List.nil_append, hdelays] at htimer
      rcases List.mem_append.mp htimer with htimer | htimer
      · exact Nat.le_trans (hdue timer htimer) hle
      · obtain ⟨p, hp, rfl⟩ := List.mem_map.mp htimer
        have hsleep := hunderway.sleeps p hp
        have hsoon := hsent (List.ne_nil_of_mem hp)
        exact Nat.le_trans (Nat.add_le_add_left hsleep now) (Nat.le_trans hsoon hle)

theorem Answering.turn (hx : x.IsServed T P Q A) (hw : w.Kept x.settings P Q A now)
    (h : Answering x ticket begun now [] queue w) :
    Answering x ticket begun now [] rest (w.turn T now ticket) := by
  cases h with
  | @fresh typed sub queued now_eq idle =>
    subst now_eq
    rw [List.nil_append] at idle
    rw [turn_eq_absorb sub rfl rfl, hw.settings]
    have hcourse : x.OnCourse (Task.run T x.settings x.command w.state .start)
        ((delaysOf ticket w.timers).map (·.slot)) 0 := by
      rw [idle]
      exact Inquiry.onCourse_start hx hw.state
    refine Answering.absorb sub hcourse ?_ ?_ fun _ => ?_
    · exact fun houtcome f hstage => Task.run_full houtcome hstage
    · rw [idle]
      rintro timer ⟨⟩
    · exact Nat.le_of_eq (by rw [deadline, Nat.zero_add, Nat.one_mul])
  | @underway typed task answered sub waits due woken =>
    rw [List.nil_append] at due waits
    rw [turn_eq_absorb sub rfl rfl, hw.settings]
    by_cases hwoken : task.woken = []
    · have hunderway := waits.underway
      rw [hwoken, List.nil_append] at hunderway
      rw [waits.run_idle hwoken]
      refine Answering.absorb sub (.inr ⟨answered, Nat.le_refl _, hunderway⟩)
        (fun _ => waits.full) due fun hsleeps => absurd rfl hsleeps
    · have hflights := hw.flights _ (List.mem_of_getElem? sub) task rfl
      have hsoon := (woken hwoken).2
      have hsome := List.length_pos_iff.mpr hwoken
      have hlater : deadline x begun answered + x.slowest ≤
          deadline x begun (answered + task.woken.length) := by
        rw [deadline_add]
        exact deadline_mono x begun (Nat.add_le_add_left hsome answered)
      refine Answering.absorb sub (waits.run hx hw.state hflights) ?_ ?_ ?_
      · exact fun houtcome f hstage => Task.run_full houtcome hstage
      · intro timer htimer
        exact Nat.le_trans (due timer htimer) (Nat.le_trans (Nat.le_add_right _ _) hlater)
      · exact fun _ => Nat.le_trans (Nat.add_le_add_right hsoon _) hlater
  | resolved isResult sub =>
    rw [turn_eq_self sub rfl]
    exact .resolved isResult sub
  | lost fails sub settled unresolved =>
    obtain ⟨task, hturn⟩ := submission_turn T now sub settled
    exact .lost fails hturn settled unresolved

theorem Answering.turns (hx : x.IsServed T P Q A) (hw : w.Kept x.settings P Q A now)
    (h : Answering x ticket begun now [] queue w) :
    Answering x ticket begun now [] [] (queue.foldl (World.turn T now) w) := by
  induction queue generalizing w with
  | nil => exact h
  | cons other rest ih =>
    refine ih (hw.turn hx.keeps other) ?_
    by_cases hne : other = ticket
    · subst hne
      exact h.turn hx hw
    · exact h.same (sameFor_turn hne) fun hmem =>
        (List.mem_cons.mp hmem).resolve_left (Ne.symm hne)

/-- The query waits, or has resolved, once all that can run has had its turn. -/
theorem Answering.runReady (hx : x.IsServed T P Q A) (hw : w.Kept x.settings P Q A now)
    (h : Answering x ticket begun now [] w.ready w) :
    Answering x ticket begun now [] [] (w.runReady T now) := by
  have hturns := Answering.turns (w := { w with ready := [] }) hx
    ⟨hw.settings, hw.state, hw.permitted, hw.flights, hw.timers⟩
    (h.same ⟨rfl, rfl, rfl⟩ id)
  exact hturns.same ⟨rfl, rfl, rfl⟩ id

theorem Answering.expire {timer : Timer} (hnow : now ≤ timer.due)
    (h : Answering x ticket begun now (timer :: ended) w.ready w) :
    Answering x ticket begun now ended (w.expire timer).ready (w.expire timer) := by
  by_cases hticket : timer.ticket = ticket
  · subst hticket
    have hown : ∀ timers, delaysOf timer.ticket (timer :: timers) =
        timer :: delaysOf timer.ticket timers := fun _ => List.filter_cons_of_pos (by simp)
    cases h with
    | fresh sub queued now_eq idle =>
      rw [List.cons_append, hown] at idle
      cases idle
    | @underway typed task answered sub waits due woken =>
      rw [List.cons_append, hown] at waits due
      have hlt : timer.ticket < w.submissions.length := (List.getElem?_eq_some_iff.mp sub).1
      have hexpire : w.expire timer = ({ w with
          submissions := w.submissions.set timer.ticket ⟨x.command, typed, .pending,
            some { task with woken := task.woken ++ [timer.slot] }⟩ } : World σ τ).enqueue
              timer.ticket := by
        simp only [World.expire, sub]
      have hset : Answering x timer.ticket begun now ended (w.expire timer).ready { w with
          submissions := w.submissions.set timer.ticket ⟨x.command, typed, .pending,
            some { task with woken := task.woken ++ [timer.slot] }⟩ } := by
        refine .underway (List.getElem?_set_self hlt) waits.wake
          (fun other hother => due other (List.mem_cons_of_mem _ hother)) fun _ => ⟨?_, ?_⟩
        · rw [hexpire]
          exact mem_enqueue timer.ticket _
        · exact Nat.le_trans hnow (due timer List.mem_cons_self)
      rw [hexpire] at hset ⊢
      exact hset.same (sameFor_enqueue _ _ _) id
    | resolved isResult sub =>
      rw [expire_eq_self sub rfl rfl]
      exact .resolved isResult sub
    | lost fails sub settled unresolved =>
      obtain ⟨task, hexpire⟩ := submission_expire sub
      exact .lost fails hexpire settled unresolved
  · have hothers : ∀ timers, delaysOf ticket (timer :: timers) = delaysOf ticket timers := fun _ =>
      List.filter_cons_of_neg (by simpa using hticket)
    have hsame : Answering x ticket begun now ended w.ready w :=
      h.congr rfl (List.Perm.of_eq (hothers _).symm) id
    exact hsame.same (sameFor_expire hticket) fun hmem => subset_expire timer hmem

theorem Answering.catchUp (hx : x.IsServed T P Q A) (hw : w.Kept x.settings P Q A now)
    {time : Nat} (htime : ∀ timer ∈ w.timers, time ≤ timer.due)
    (h : Answering x ticket begun time [] w.ready w) :
    Answering x ticket begun time [] [] (w.catchUp T time) := by
  have hfold : ∀ (ended : List Timer) (w : World σ τ), (∀ timer ∈ ended, time ≤ timer.due) →
      w.Kept x.settings P Q A time → Answering x ticket begun time ended w.ready w →
        (ended.foldl World.expire w).Kept x.settings P Q A time ∧
          Answering x ticket begun time [] (ended.foldl World.expire w).ready
            (ended.foldl World.expire w) := by
    intro ended
    induction ended with
    | nil => exact fun w _ hw h => ⟨hw, h⟩
    | cons timer rest ih =>
      intro w htimes hw h
      obtain ⟨hfirst, hrest⟩ := List.forall_mem_cons.mp htimes
      exact ih _ hrest (hw.expire timer) (h.expire hfirst)
  have hparted : Answering x ticket begun time (w.timers.filter fun timer => timer.due ≤ time)
      w.ready { w with timers := w.timers.filter fun timer => !(timer.due ≤ time) } := by
    have hperm : (delaysOf ticket ((w.timers.filter fun timer => timer.due ≤ time) ++
        w.timers.filter fun timer => !(timer.due ≤ time))).Perm (delaysOf ticket w.timers) :=
      (List.filter_append_perm (fun timer : Timer => timer.due ≤ time) w.timers).filter _
    exact h.congr rfl hperm id
  obtain ⟨hkept, hended⟩ := hfold (w.timers.filter fun timer => timer.due ≤ time)
    { w with timers := w.timers.filter fun timer => !(timer.due ≤ time) }
    (fun timer htimer => htime timer (List.mem_filter.mp htimer).1) (hw.parted time) hparted
  exact hended.runReady hx hkept

/-- The query is settled if all delays go on beyond the deadline of its last answer. -/
theorem Answering.report_of_late (hx : x.IsServed T P Q A)
    (h : Answering x ticket begun now [] [] w)
    (hlate : ∀ timer ∈ w.timers, deadline x begun x.plan.pieces.length < timer.due) :
    (∃ result, x.IsResult result ∧ w.report? ticket = some (.ok (.rows result))) ∨ x.Fails := by
  cases h with
  | fresh sub queued => cases queued
  | @underway typed task answered sub waits due woken =>
    exfalso
    rw [List.nil_append] at due
    have hnotwoken : task.woken = [] := by
      by_contra hwoken
      exact List.not_mem_nil (woken hwoken).1
    have hsome : delaysOf ticket w.timers ≠ [] := by
      intro hnil
      refine waits.slots_ne_nil hx ?_
      rw [hnotwoken, List.nil_append, List.nil_append, hnil, List.map_nil]
    obtain ⟨timer, htimer⟩ := List.exists_mem_of_ne_nil _ hsome
    have hsoon := due timer htimer
    have hdeadline := deadline_mono x begun waits.underway.awaits.answered_le
    exact absurd (hlate timer (List.mem_filter.mp htimer).1)
      (Nat.not_lt.mpr (Nat.le_trans hsoon hdeadline))
  | resolved isResult sub =>
    exact .inl ⟨_, isResult, report?_of_settled sub nofun⟩
  | lost fails => exact .inr fails

theorem Answering.report_cases (h : Answering x ticket begun now ended queue w) :
    w.report? ticket = none ∨
      (∃ result, x.IsResult result ∧ w.report? ticket = some (.ok (.rows result))) ∨
        x.Fails ∧ ∃ failure, w.report? ticket = some (.error failure) := by
  cases h with
  | fresh sub => exact .inl (report?_of_pending sub rfl rfl)
  | underway sub => exact .inl (report?_of_pending sub rfl rfl)
  | resolved isResult sub => exact .inr (.inl ⟨_, isResult, report?_of_settled sub nofun⟩)
  | @lost sub fails sub_eq settled unresolved =>
    refine .inr (.inr ⟨fails, ?_⟩)
    rw [report?_of_settled sub_eq settled]
    rcases hstanding : sub.standing with _ | response | failure | _
    · exact absurd hstanding settled
    · exact absurd hstanding (unresolved response)
    · exact ⟨failure, rfl⟩
    · exact ⟨_, rfl⟩

theorem le_of_nextDue? {due : Nat} (h : w.nextDue? = some due) :
    ∀ timer ∈ w.timers, due ≤ timer.due := by
  intro timer htimer
  exact (List.min?_eq_some_iff.mp h).2 timer.due (List.mem_map_of_mem htimer)

theorem timers_of_nextDue? {w : World σ τ} (h : w.nextDue? = none) : w.timers = [] := by
  rwa [nextDue?, List.min?_eq_none_iff, List.map_eq_nil_iff] at h

end World

namespace Session

open World (Answering deadline)

variable {σ τ : Type} {x : Inquiry τ} {T : Transport σ τ} {P : σ → Prop} {Q : Command → τ → Prop}
  {A : Command → Prop} {s : Session σ τ} {ticket begun : Nat}

def Attends (x : Inquiry τ) (ticket begun : Nat) (s : Session σ τ) : Prop :=
  Answering x ticket begun s.now [] s.world.ready s.world

def Rests (x : Inquiry τ) (ticket begun : Nat) (s : Session σ τ) : Prop :=
  Answering x ticket begun s.now [] [] s.world

theorem Attends.settle (hx : x.IsServed T P Q A) (hs : s.Kept x.settings P Q A)
    (h : s.Attends x ticket begun) : (s.settle T).Rests x ticket begun :=
  World.Answering.runReady hx hs h

theorem Rests.moveTo (hx : x.IsServed T P Q A) (hs : s.Kept x.settings P Q A)
    (h : s.Rests x ticket begun) {time : Nat} (htime : ∀ timer ∈ s.world.timers, time ≤ timer.due) :
    (s.moveTo T time).Rests x ticket begun :=
  (World.Answering.at_rest h time s.world.ready).catchUp hx hs htime

/-- While time passes the query waits or is settled. In the end the wait is over, or all delays that
end before the limit have ended. -/
theorem Rests.elapse (hx : x.IsServed T P Q A) (hs : s.Kept x.settings P Q A)
    (h : s.Rests x ticket begun) (limit : Nat) (stop : World σ τ → Bool) :
    (s.elapse T limit stop).Rests x ticket begun ∧
      (stop (s.elapse T limit stop).world = true ∨
        ∀ timer ∈ (s.elapse T limit stop).world.timers, limit ≤ timer.due) := by
  induction s using Session.elapse.induct T limit stop with
  | case1 s hstop =>
    rw [Session.elapse, if_pos hstop]
    exact ⟨h, .inl hstop⟩
  | case2 s hstop hnone =>
    rw [Session.elapse, if_neg hstop]
    simp only [hnone]
    refine ⟨h, .inr ?_⟩
    rw [World.timers_of_nextDue? hnone]
    rintro timer ⟨⟩
  | case3 s hstop due hdue hin ih =>
    rw [Session.elapse, if_neg hstop]
    simp only [hdue, if_pos hin]
    exact ih (hs.moveTo hx.keeps due) (h.moveTo hx hs (World.le_of_nextDue? hdue))
  | case4 s hstop due hdue hout =>
    rw [Session.elapse, if_neg hstop]
    simp only [hdue, if_neg hout]
    have hmin := World.le_of_nextDue? hdue
    have hmem : due ∈ s.world.timers.map (·.due) := (List.min?_eq_some_iff.mp hdue).1
    obtain ⟨first, hfirst, rfl⟩ := List.mem_map.mp hmem
    have hfuture := (hs.timers first hfirst).1
    exact ⟨h, .inr fun timer htimer => Nat.le_trans (by omega) (hmin timer htimer)⟩

theorem attends_submit (hs : s.Kept x.settings P Q A) (typed : Bool) :
    (s.submit x.command typed).1.Attends x s.world.submissions.length s.now := by
  have hsub : (s.submit x.command typed).1.world.submissions[s.world.submissions.length]? =
      some ⟨x.command, typed, .pending, some .start⟩ := by
    simp [submit, modify, World.submit]
  refine .fresh hsub ?_ rfl ?_
  · exact List.mem_append_right _ (List.mem_singleton_self _)
  · refine List.filter_eq_nil_iff.mpr fun timer htimer => ?_
    have hlt := (hs.timers timer htimer).2
    simpa using Nat.ne_of_lt hlt

theorem Attends.advance (hx : x.IsServed T P Q A) (hs : s.Kept x.settings P Q A)
    (h : s.Attends x ticket begun) (millis : Nat) :
    (s.advance T millis).Rests x ticket begun := by
  have hkept := hs.settle hx.keeps
  obtain ⟨hrests, hlimit⟩ := (h.settle hx hs).elapse hx hkept (s.now + millis) fun _ => false
  exact hrests.moveTo hx (hkept.elapse hx.keeps _ _) (hlimit.resolve_left nofun)

/-- A query that is served is settled within one round for each of its requests. -/
theorem Attends.report_advance (hx : x.IsServed T P Q A) (hs : s.Kept x.settings P Q A)
    (h : s.Attends x ticket begun) {millis : Nat}
    (hmillis : begun + (x.plan.pieces.length + 1) * x.slowest ≤ s.now + millis) :
    (∃ result, x.IsResult result ∧
      (s.advance T millis).world.report? ticket = some (.ok (.rows result))) ∨ x.Fails := by
  refine World.Answering.report_of_late hx (h.advance hx hs millis) fun timer htimer => ?_
  have hend := hs.advance hx.keeps millis
  exact Nat.lt_of_le_of_lt hmillis (hend.timers timer htimer).1

/-- Waiting for a query that is served ends when it is settled, if that takes no longer than one
waits. -/
theorem Attends.waitUntil_eq (hx : x.IsServed T P Q A) (hs : s.Kept x.settings P Q A)
    (h : s.Attends x ticket begun) {limit : Nat}
    (hlimit : begun + (x.plan.pieces.length + 1) * x.slowest < limit) :
    (∃ result, x.IsResult result ∧
      (s.waitUntil T limit ticket).2 = some (.ok (.rows result))) ∨ x.Fails := by
  have hkept := hs.settle hx.keeps
  obtain ⟨hrests, hover⟩ := (h.settle hx hs).elapse hx hkept limit
    fun w => (w.report? ticket).isSome
  have hreport : (∃ result, x.IsResult result ∧
      ((s.settle T).elapse T limit
        fun w => (w.report? ticket).isSome).world.report? ticket = some (.ok (.rows result))) ∨
          x.Fails := by
    rcases hover with hstop | hlate
    · rcases World.Answering.report_cases hrests with hnone | hresult | hfails
      · rw [hnone] at hstop
        cases hstop
      · exact .inl hresult
      · exact .inr hfails.1
    · exact World.Answering.report_of_late hx hrests fun timer htimer =>
        Nat.lt_of_lt_of_le hlimit (hlate timer htimer)
  refine hreport.imp_left fun ⟨result, hresult, heq⟩ => ⟨result, hresult, ?_⟩
  simp only [waitUntil, heq]

end Session

end Timeslice
