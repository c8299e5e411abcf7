import Timeslice.Proofs.Session.Calls
import Timeslice.Proofs.Session.Moves

/-!
# What a session does is a run of acts

A session that settles gives its tasks their turns one by one and then runs the callbacks; one that
lets time pass first ends the delays. So whatever is asked of a session, its world goes through a run
of acts, none of which is a race.
-/

namespace Timeslice

variable {σ τ : Type}

namespace World

variable {T : Transport σ τ} {w w' : World σ τ} {now : Nat}

def readyActs (now : Nat) (w : World σ τ) : List (Act σ) :=
  w.ready.map (.turn now) ++ (List.range w.callbacks.length).map .notify

theorem turn_withReady (ready : List Nat) (ticket : Nat) :
    ({ w with ready := ready } : World σ τ).turn T now ticket =
      { w.turn T now ticket with ready := ready } := by
  unfold turn
  dsimp only
  cases w.submissions[ticket]? with
  | none => rfl
  | some sub =>
    dsimp only
    cases sub.task with
    | none => rfl
    | some task =>
      dsimp only
      split_ifs
      · unfold absorb
        cases (task.run T w.settings sub.command w.state).outcome <;> rfl
      · rfl

theorem run_turns (T : Transport σ τ) (now : Nat) (w : World σ τ) (queue : List Nat) :
    ({ w with ready := queue } : World σ τ).run T (queue.map (.turn now)) =
      queue.foldl (turn T now) { w with ready := [] } := by
  induction queue generalizing w with
  | nil => rfl
  | cons ticket rest ih =>
    have hturn : ({ w with ready := ticket :: rest } : World σ τ).perform T (.turn now ticket) =
        { w.turn T now ticket with ready := rest } := by
      rw [perform, List.erase_cons_head]
      exact turn_withReady (w := w) rest ticket
    rw [List.map_cons, run_cons, hturn, ih, List.foldl_cons]
    exact congrArg (rest.foldl (turn T now)) (turn_withReady [] ticket).symm

theorem callbacks_turns (w : World σ τ) (queue : List Nat) :
    (queue.foldl (turn T now) w).callbacks = w.callbacks := by
  induction queue generalizing w with
  | nil => rfl
  | cons ticket rest ih =>
    rw [List.foldl_cons, ih]
    unfold turn absorb drop
    repeat' split
    all_goals rfl

theorem hand_withCallbacks (w : World σ τ) (callbacks : List Callback) :
    ({ w with callbacks := callbacks } : World σ τ).hand = w.hand :=
  rfl

theorem run_notify (T : Transport σ τ) (w : World σ τ) {n : Nat} (hn : n ≤ w.callbacks.length) :
    w.run T ((List.range n).map .notify) =
      { w with callbacks := (w.callbacks.take n).map w.hand ++ w.callbacks.drop n } := by
  induction n with
  | zero => rfl
  | succ n ih =>
    have hlength : ((w.callbacks.take n).map w.hand).length = n := by
      rw [List.length_map, List.length_take, Nat.min_eq_left (Nat.le_of_succ_le hn)]
    have hget : ((w.callbacks.take n).map w.hand ++ w.callbacks.drop n)[n]? =
        some w.callbacks[n] := by
      rw [List.getElem?_append_right (Nat.le_of_eq hlength), hlength, Nat.sub_self,
        List.getElem?_drop, Nat.add_zero, List.getElem?_eq_getElem hn]
    rw [List.range_succ, List.map_append, run_append, ih (Nat.le_of_succ_le hn)]
    change (World.notify _ n) = _
    simp only [notify, hget, hand_withCallbacks]
    congr 1
    rw [List.set_append_right _ _ (Nat.le_of_eq hlength), hlength, Nat.sub_self,
      List.drop_eq_getElem_cons hn, List.set_cons_zero, List.take_succ_eq_append_getElem hn,
      List.map_append, List.append_assoc]
    rfl

/-- The tasks that can run have their turns and the callbacks are run, one act at a time. -/
theorem runReady_eq_run (T : Transport σ τ) (now : Nat) (w : World σ τ) :
    w.runReady T now = w.run T (w.readyActs now) := by
  set turned := w.ready.foldl (turn T now) { w with ready := [] } with hturned
  have hcallbacks : turned.callbacks = w.callbacks := callbacks_turns _ _
  rw [readyActs, run_append, run_turns, ← hturned, ← hcallbacks, run_notify T turned (Nat.le_refl _),
    List.take_length, List.drop_length, List.append_nil]
  rfl

/-- A run of acts leads from one world to the other, and none of them is a race. -/
def Reaches (T : Transport σ τ) (w w' : World σ τ) : Prop :=
  ∃ acts, (∀ act ∈ acts, act.IsSerial) ∧ w.run T acts = w'

theorem reaches_refl (T : Transport σ τ) (w : World σ τ) : Reaches T w w :=
  ⟨[], by rintro act ⟨⟩, rfl⟩

theorem Reaches.trans {w'' : World σ τ} (h : Reaches T w w') (h' : Reaches T w' w'') :
    Reaches T w w'' := by
  obtain ⟨acts, hacts, rfl⟩ := h
  obtain ⟨acts', hacts', rfl⟩ := h'
  exact ⟨acts ++ acts', List.forall_mem_append.mpr ⟨hacts, hacts'⟩, run_append acts acts'⟩

theorem reaches_perform (T : Transport σ τ) (w : World σ τ) (act : Act σ) (hact : act.IsSerial) :
    Reaches T w (w.perform T act) :=
  ⟨[act], List.forall_mem_singleton.mpr hact, rfl⟩

theorem isSerial_readyActs (now : Nat) (w : World σ τ) : ∀ act ∈ w.readyActs now, act.IsSerial := by
  intro act hact
  rcases List.mem_append.mp hact with hact | hact
  · obtain ⟨ticket, -, rfl⟩ := List.mem_map.mp hact
    trivial
  · obtain ⟨n, -, rfl⟩ := List.mem_map.mp hact
    trivial

theorem reaches_runReady (T : Transport σ τ) (now : Nat) (w : World σ τ) :
    Reaches T w (w.runReady T now) :=
  ⟨w.readyActs now, isSerial_readyActs now w, (runReady_eq_run T now w).symm⟩

theorem expire_withTimers (timers : List Timer) (timer : Timer) :
    ({ w with timers := timers } : World σ τ).expire timer =
      { w.expire timer with timers := timers } := by
  unfold expire
  dsimp only
  cases w.submissions[timer.ticket]? with
  | none => rfl
  | some sub =>
    dsimp only
    cases sub.task with
    | none => rfl
    | some task =>
      dsimp only
      unfold enqueue
      dsimp only
      split_ifs <;> rfl

theorem run_expire (T : Transport σ τ) (w : World σ τ) (timers ended : List Timer) :
    ({ w with timers := timers } : World σ τ).run T (ended.map .expire) =
      ended.foldl expire { w with timers := ended.foldl List.erase timers } := by
  induction ended generalizing w timers with
  | nil => rfl
  | cons timer rest ih =>
    have hexpire : ({ w with timers := timers } : World σ τ).perform T (.expire timer) =
        { w.expire timer with timers := timers.erase timer } :=
      expire_withTimers (w := w) (timers.erase timer) timer
    rw [List.map_cons, run_cons, hexpire, ih, List.foldl_cons, List.foldl_cons]
    exact congrArg (rest.foldl expire) (expire_withTimers (w := w) _ timer).symm

theorem foldl_erase_cons {timer : Timer} {ended : List Timer} (h : timer ∉ ended)
    (timers : List Timer) :
    ended.foldl List.erase (timer :: timers) = timer :: ended.foldl List.erase timers := by
  induction ended generalizing timers with
  | nil => rfl
  | cons other rest ih =>
    rw [List.mem_cons, not_or] at h
    rw [List.foldl_cons, List.foldl_cons, List.erase_cons_tail (by simpa using h.1), ih h.2]

theorem foldl_erase_filter (p : Timer → Bool) (timers : List Timer) :
    (timers.filter p).foldl List.erase timers = timers.filter fun timer => !p timer := by
  induction timers with
  | nil => rfl
  | cons timer rest ih =>
    by_cases hp : p timer = true
    · rw [List.filter_cons_of_pos hp, List.foldl_cons, List.erase_cons_head, ih,
        List.filter_cons_of_neg (by simp [hp])]
    · have hmem : timer ∉ rest.filter p := fun hmem => hp (List.mem_filter.mp hmem).2
      rw [List.filter_cons_of_neg hp, foldl_erase_cons hmem, ih,
        List.filter_cons_of_pos (by simp [hp])]

theorem reaches_catchUp (T : Transport σ τ) (now : Nat) (w : World σ τ) :
    Reaches T w (w.catchUp T now) := by
  set ended := w.timers.filter fun timer => timer.due ≤ now with hended
  have hexpired : w.run T (ended.map .expire) =
      ended.foldl expire { w with timers := w.timers.filter fun timer => !(timer.due ≤ now) } := by
    rw [← foldl_erase_filter (fun timer => decide (timer.due ≤ now)) w.timers]
    exact run_expire T w w.timers ended
  have hserial : ∀ act ∈ ended.map (Act.expire (σ := σ)), act.IsSerial := by
    intro act hact
    obtain ⟨timer, -, rfl⟩ := List.mem_map.mp hact
    trivial
  exact Reaches.trans ⟨_, hserial, hexpired⟩ (reaches_runReady T now _)

end World

namespace Session

open World (Reaches reaches_refl reaches_perform)

variable {T : Transport σ τ} {s : Session σ τ}

theorem reaches_elapse (T : Transport σ τ) (limit : Nat) (stop : World σ τ → Bool)
    (s : Session σ τ) : Reaches T s.world (s.elapse T limit stop).world := by
  induction s using Session.elapse.induct T limit stop with
  | case1 s hstop =>
    rw [elapse, if_pos hstop]
    exact reaches_refl T s.world
  | case2 s hstop hnone =>
    rw [elapse, if_neg hstop]
    simp only [hnone]
    exact reaches_refl T s.world
  | case3 s hstop due hdue hin ih =>
    rw [elapse, if_neg hstop]
    simp only [hdue, if_pos hin]
    exact (World.reaches_catchUp T due s.world).trans ih
  | case4 s hstop due hdue hout =>
    rw [elapse, if_neg hstop]
    simp only [hdue, if_neg hout]
    exact reaches_refl T s.world

theorem reaches_advance (T : Transport σ τ) (s : Session σ τ) (millis : Nat) :
    Reaches T s.world (s.advance T millis).world :=
  ((World.reaches_runReady T s.now s.world).trans (reaches_elapse T _ _ (s.settle T))).trans
    (World.reaches_catchUp T _ _)

theorem reaches_waitUntil (T : Transport σ τ) (s : Session σ τ) (limit ticket : Nat) :
    Reaches T s.world (s.waitUntil T limit ticket).1.world := by
  have helapse := (World.reaches_runReady T s.now s.world).trans
    (reaches_elapse T limit (fun w => (w.report? ticket).isSome) (s.settle T))
  unfold waitUntil
  dsimp only
  split
  · exact helapse
  · exact helapse.trans (World.reaches_catchUp T limit _)

theorem reaches_drift (T : Transport σ τ) (w : World σ τ) (state : σ) :
    Reaches T w { w with state := state } :=
  reaches_perform T w (.drift fun _ => state) trivial

theorem reaches_direct (T : Transport σ τ) (s : Session σ τ) (r : Request) :
    Reaches T s.world (s.direct T r).1.world := by
  unfold direct
  rcases T.arrive s.world.state r with ⟨state, intake⟩
  dsimp only
  set arrived : Session σ τ := s.modify fun w => { w with state := state }
  have harrived : Reaches T s.world arrived.world := reaches_drift T s.world state
  generalize hwaited : (if intake.delay = 0 then arrived else _) = waited
  have hwait : Reaches T s.world waited.world := by
    rw [← hwaited]
    split_ifs
    · exact harrived
    · exact (harrived.trans (World.reaches_runReady T arrived.now arrived.world)).trans
        (reaches_elapse T _ _ (arrived.settle T))
  set answered : Session σ τ := waited.modify fun w =>
    { w with state := (T.answer waited.world.state intake.taken).1 }
  have hanswered : Reaches T s.world answered.world := hwait.trans (reaches_drift T waited.world _)
  have hidle : Reaches T s.world (answered.idle T).world :=
    hanswered.trans (reaches_advance T answered patience)
  split
  · exact hanswered.trans (World.reaches_catchUp T answered.now answered.world)
  · exact hidle.trans (reaches_drift T _ _)
  · exact hidle.trans (reaches_drift T _ _)

/-- Whatever is asked of a session is a run of acts. -/
theorem reaches_call (T : Transport σ τ) (s : Session σ τ) (call : Call) :
    Reaches T s.world (s.call T call).world := by
  cases call with
  | submit c typed => exact reaches_perform T s.world (.submit c typed) trivial
  | cancel ticket => exact reaches_perform T s.world (.cancel ticket) trivial
  | onComplete ticket => exact reaches_perform T s.world (.register ticket) trivial
  | release ticket => exact reaches_perform T s.world (.release ticket) trivial
  | settle => exact World.reaches_runReady T s.now s.world
  | advance millis => exact reaches_advance T s millis
  | waitUntil limit ticket => exact reaches_waitUntil T s limit ticket
  | direct r => exact reaches_direct T s r

theorem reaches_calls (T : Transport σ τ) (s : Session σ τ) (cs : List Call) :
    Reaches T s.world (s.calls T cs).world := by
  induction cs generalizing s with
  | nil => exact reaches_refl T s.world
  | cons call rest ih => exact (reaches_call T s call).trans (ih (s.call T call))

end Session

end Timeslice
