import Timeslice.Proofs.Session.Turn
import Timeslice.Session.Basic

/-!
# What sessions preserve

A property of a transport's state that requests of the permitted commands do not destroy holds
throughout a session. Along with it go a property of what is in flight and the fact that all delays
lie in the future.
-/

namespace Timeslice

variable {σ τ : Type} {T : Transport σ τ} {settings : Settings} {c : Command} {P : σ → Prop}
  {Q : Command → τ → Prop} {A : Command → Prop}

def Request.IsOf (c : Command) (r : Request) : Prop :=
  r = c.opening ∨ ∃ piece, r = ⟨c.table, .query piece⟩

/-- A transport whose states keep `P` while permitted commands use it; `Q` holds of what it takes
from a command. -/
structure Transport.Keeps (T : Transport σ τ) (P : σ → Prop) (Q : Command → τ → Prop)
    (A : Command → Prop) : Prop where
  arrive : ∀ c s r, A c → Request.IsOf c r → P s →
    P (T.arrive s r).1 ∧ Q c (T.arrive s r).2.taken
  answer : ∀ c s h, A c → Q c h → P s → P (T.answer s h).1
  abandon : ∀ s h, P s → P (T.abandon s h)

namespace Turn

structure Kept (P : σ → Prop) (Q : Command → τ → Prop) (c : Command) (t : Turn σ τ) : Prop where
  state : P t.state
  flights : ∀ f ∈ t.flights, Q c f.taken
  sleeps : ∀ p ∈ t.sleeps, 0 < p.2

variable {t : Turn σ τ}

theorem Kept.advance (h : t.Kept P Q c) (slot : Nat) (reply : Except Rejection Response) :
    (t.advance settings c slot reply).Kept P Q c := by
  unfold Turn.advance
  split <;> exact ⟨h.state, h.flights, h.sleeps⟩

theorem Kept.hear (hT : T.Keeps P Q A) (hc : A c) (h : t.Kept P Q c) (slot : Nat) {taken : τ}
    (htaken : Q c taken) : (t.hear T settings c slot taken).Kept P Q c := by
  have hstate := hT.answer c t.state taken hc htaken h.state
  unfold Turn.hear
  rcases hanswer : T.answer t.state taken with ⟨state, answer⟩
  rw [hanswer] at hstate
  cases answer with
  | reply r =>
    exact Kept.advance (t := { t with state := state }) ⟨hstate, h.flights, h.sleeps⟩ slot r
  | silent =>
    refine ⟨hstate, fun f hf => ?_, h.sleeps⟩
    rcases List.mem_append.mp hf with hf | hf
    · exact h.flights f hf
    · rw [List.mem_singleton.mp hf]
      exact htaken
  | broken => exact ⟨hstate, h.flights, h.sleeps⟩

theorem Kept.send (hT : T.Keeps P Q A) (hc : A c) (h : t.Kept P Q c) (slot : Nat) {r : Request}
    (hr : r.IsOf c) : (t.send T settings c slot r).Kept P Q c := by
  obtain ⟨hstate, htaken⟩ := hT.arrive c t.state r hc hr h.state
  unfold Turn.send
  rcases harrive : T.arrive t.state r with ⟨state, intake⟩
  rw [harrive] at hstate htaken
  dsimp only
  split_ifs with hdelay
  · exact Kept.hear (t := { t with state := state }) hT hc ⟨hstate, h.flights, h.sleeps⟩ slot htaken
  · refine ⟨hstate, fun f hf => ?_, fun p hp => ?_⟩
    · rcases List.mem_append.mp hf with hf | hf
      · exact h.flights f hf
      · rw [List.mem_singleton.mp hf]
        exact htaken
    · rcases List.mem_append.mp hp with hp | hp
      · exact h.sleeps p hp
      · rw [List.mem_singleton.mp hp]
        exact Nat.pos_of_ne_zero hdelay

variable (settings) in
theorem Kept.wake (hT : T.Keeps P Q A) (hc : A c) (h : t.Kept P Q c) (slot : Nat) :
    (t.wake T settings c slot).Kept P Q c := by
  unfold Turn.wake
  split_ifs
  · exact h
  · split
    · exact h
    · next f hfind =>
      refine Kept.hear (t := { t with flights := t.flights.filter fun f => f.slot != slot }) hT hc
        ⟨h.state, fun g hg => h.flights g (List.mem_filter.mp hg).1, h.sleeps⟩ slot ?_
      exact h.flights f (List.mem_of_find?_eq_some hfind)

variable (settings) in
theorem Kept.wakeAll (hT : T.Keeps P Q A) (hc : A c) (h : t.Kept P Q c) (woken : List Nat) :
    (woken.foldl (Turn.wake T settings c) t).Kept P Q c := by
  induction woken generalizing t with
  | nil => exact h
  | cons slot rest ih => exact ih (h.wake settings hT hc slot)

theorem Kept.openUp (hT : T.Keeps P Q A) (hc : A c) (h : t.Kept P Q c) :
    (t.openUp T settings c).Kept P Q c := by
  unfold Turn.openUp
  split
  · exact Kept.send (t := { t with stage := .opened }) hT hc ⟨h.state, h.flights, h.sleeps⟩ 0
      (.inl rfl)
  · exact h

theorem abandonAll_keeps (hT : T.Keeps P Q A) {state : σ} (h : P state)
    (flights : List (Flight τ)) : P (abandonAll T state flights) := by
  unfold abandonAll
  induction flights generalizing state with
  | nil => exact h
  | cons f rest ih => exact ih (hT.abandon state f.taken h)

theorem kept_run (hT : T.Keeps P Q A) (hc : A c) {state : σ} (hstate : P state) {task : Task τ}
    (hflights : ∀ f ∈ task.flights, Q c f.taken) : (task.run T settings c state).Kept P Q c := by
  refine Task.run_induction ⟨hstate, hflights, by rintro p ⟨⟩⟩ ?_ ?_ ?_ ?_
  · intro t slot f ht _ hf
    exact Kept.hear (t := t.land slot) hT hc
      ⟨ht.state, fun g hg => ht.flights g (List.mem_filter.mp hg).1, ht.sleeps⟩ slot
      (ht.flights f (List.mem_of_find?_eq_some hf))
  · intro t ht _ _
    exact Kept.send (t := { t with stage := .opened }) hT hc ⟨ht.state, ht.flights, ht.sleeps⟩ 0
      (.inl rfl)
  · intro t _ slot piece f' ht _ _ _
    exact Kept.send (t := { t with stage := .gathering f' }) hT hc
      ⟨ht.state, ht.flights, ht.sleeps⟩ slot (.inr ⟨piece, rfl⟩)
  · exact fun t ht _ => ⟨abandonAll_keeps hT ht.state t.flights, by rintro f ⟨⟩, ht.sleeps⟩

end Turn

namespace World

structure Kept (settings : Settings) (P : σ → Prop) (Q : Command → τ → Prop) (A : Command → Prop)
    (now : Nat) (w : World σ τ) : Prop where
  settings : w.settings = settings
  state : P w.state
  permitted : ∀ sub ∈ w.submissions, sub.task.isSome = true → sub.standing = .pending →
    A sub.command
  flights : ∀ sub ∈ w.submissions, ∀ task ∈ sub.task, ∀ f ∈ task.flights, Q sub.command f.taken
  timers : ∀ timer ∈ w.timers, now < timer.due ∧ timer.ticket < w.submissions.length

variable {w : World σ τ} {now : Nat}

theorem Kept.set (h : w.Kept settings P Q A now) {state : σ} (hstate : P state)
    {timers : List Timer}
    (htimers : ∀ timer ∈ timers, now < timer.due ∧ timer.ticket < w.submissions.length)
    {ready : List Nat} {ticket : Nat} {sub : Submission τ}
    (hpermitted : sub.task.isSome = true → sub.standing = .pending → A sub.command)
    (hflights : ∀ task ∈ sub.task, ∀ f ∈ task.flights, Q sub.command f.taken) :
    ({ w with
        state := state, submissions := w.submissions.set ticket sub, timers := timers
        ready := ready } : World σ τ).Kept settings P Q A now := by
  refine ⟨h.settings, hstate, fun other hother => ?_, fun other hother => ?_,
    fun timer htimer => ?_⟩
  · rcases List.mem_or_eq_of_mem_set hother with hother | rfl
    · exact h.permitted other hother
    · exact hpermitted
  · rcases List.mem_or_eq_of_mem_set hother with hother | rfl
    · exact h.flights other hother
    · exact hflights
  · rw [List.length_set]
    exact htimers timer htimer

theorem Kept.absorb (h : w.Kept settings P Q A now) {ticket : Nat} {sub : Submission τ}
    (hsub : w.submissions[ticket]? = some sub) (hc : A sub.command) {t : Turn σ τ}
    (ht : t.Kept P Q sub.command) : (w.absorb now ticket sub t).Kept settings P Q A now := by
  have hlt : ticket < w.submissions.length := (List.getElem?_eq_some_iff.mp hsub).1
  unfold World.absorb
  split
  · exact h.set ht.state (fun timer htimer => h.timers timer (List.mem_filter.mp htimer).1)
      (by rintro ⟨⟩) (by rintro task ⟨⟩)
  · refine h.set ht.state (fun timer htimer => ?_) (fun _ _ => hc) ?_
    · rcases List.mem_append.mp htimer with htimer | htimer
      · exact h.timers timer htimer
      · obtain ⟨p, hp, rfl⟩ := List.mem_map.mp htimer
        exact ⟨Nat.lt_add_of_pos_right (ht.sleeps p hp), hlt⟩
    · rintro task ⟨⟩
      exact ht.flights

theorem Kept.turn (hT : T.Keeps P Q A) (h : w.Kept settings P Q A now) (ticket : Nat) :
    (w.turn T now ticket).Kept settings P Q A now := by
  unfold World.turn
  split
  · exact h
  · next sub hsub =>
    have hmem := List.mem_of_getElem? hsub
    split
    · exact h
    · next task htask =>
      split_ifs with hpending
      · have hc := h.permitted sub hmem (by rw [htask]; rfl) (Standing.isPending_iff.mp hpending)
        exact h.absorb hsub hc (Turn.kept_run hT hc h.state (h.flights sub hmem task htask))
      · exact h.set (Turn.abandonAll_keeps hT h.state task.flights)
          (fun timer htimer => h.timers timer (List.mem_filter.mp htimer).1)
          (by rintro ⟨⟩) (by rintro task ⟨⟩)

theorem Kept.enqueue (h : w.Kept settings P Q A now) (ticket : Nat) :
    (w.enqueue ticket).Kept settings P Q A now := by
  unfold World.enqueue
  split_ifs
  · exact h
  · exact ⟨h.settings, h.state, h.permitted, h.flights, h.timers⟩

theorem Kept.runReady (hT : T.Keeps P Q A) (h : w.Kept settings P Q A now) :
    (w.runReady T now).Kept settings P Q A now := by
  have hfold : ∀ (ready : List Nat) (w : World σ τ), w.Kept settings P Q A now →
      (ready.foldl (World.turn T now) w).Kept settings P Q A now := by
    intro ready
    induction ready with
    | nil => exact fun w hw => hw
    | cons ticket rest ih => exact fun w hw => ih _ (hw.turn hT ticket)
  have hturns := hfold w.ready { w with ready := [] }
    ⟨h.settings, h.state, h.permitted, h.flights, h.timers⟩
  exact ⟨hturns.settings, hturns.state, hturns.permitted, hturns.flights, hturns.timers⟩

theorem Kept.expire (h : w.Kept settings P Q A now) (timer : Timer) :
    (w.expire timer).Kept settings P Q A now := by
  unfold World.expire
  split
  · exact h
  · next sub hsub =>
    have hmem := List.mem_of_getElem? hsub
    split
    · exact h
    · next task htask =>
      refine Kept.enqueue (h.set h.state h.timers (fun _ hpending => ?_) ?_) timer.ticket
      · exact h.permitted sub hmem (by rw [htask]; rfl) hpending
      · rintro task' ⟨⟩
        exact h.flights sub hmem task htask

theorem Kept.parted (h : w.Kept settings P Q A now) (time : Nat) :
    ({ w with timers := w.timers.filter fun timer => !(timer.due ≤ time) } : World σ τ).Kept
      settings P Q A time := by
  refine ⟨h.settings, h.state, h.permitted, h.flights, fun timer htimer => ?_⟩
  obtain ⟨hmem, hlate⟩ := List.mem_filter.mp htimer
  exact ⟨by simpa using hlate, (h.timers timer hmem).2⟩

theorem Kept.catchUp (hT : T.Keeps P Q A) (h : w.Kept settings P Q A now) (time : Nat) :
    (w.catchUp T time).Kept settings P Q A time := by
  have hfold : ∀ (ended : List Timer) (w : World σ τ), w.Kept settings P Q A time →
      (ended.foldl World.expire w).Kept settings P Q A time := by
    intro ended
    induction ended with
    | nil => exact fun w hw => hw
    | cons timer rest ih => exact fun w hw => ih _ (hw.expire timer)
  exact (hfold _ _ (h.parted time)).runReady hT

theorem Kept.withState (h : w.Kept settings P Q A now) {state : σ} (hstate : P state) :
    ({ w with state := state } : World σ τ).Kept settings P Q A now :=
  ⟨h.settings, hstate, h.permitted, h.flights, h.timers⟩

theorem Kept.submit (h : w.Kept settings P Q A now) (hc : A c) (typed : Bool) :
    (w.submit c typed).Kept settings P Q A now := by
  refine ⟨h.settings, h.state, fun sub hsub => ?_, fun sub hsub => ?_, fun timer htimer => ?_⟩
  · rcases List.mem_append.mp hsub with hsub | hsub
    · exact h.permitted sub hsub
    · rw [List.mem_singleton.mp hsub]
      exact fun _ _ => hc
  · rcases List.mem_append.mp hsub with hsub | hsub
    · exact h.flights sub hsub
    · rw [List.mem_singleton.mp hsub]
      rintro task ⟨⟩ f ⟨⟩
  · obtain ⟨hdue, hticket⟩ := h.timers timer htimer
    refine ⟨hdue, ?_⟩
    rw [World.submit, List.length_append]
    exact Nat.lt_add_right _ hticket

theorem Kept.cancel (h : w.Kept settings P Q A now) (ticket : Nat) :
    (w.cancel ticket).Kept settings P Q A now := by
  unfold World.cancel
  split
  · exact h
  · next sub hsub =>
    split_ifs
    · refine Kept.enqueue (h.set h.state h.timers (fun _ hpending => by cases hpending) ?_) ticket
      exact h.flights sub (List.mem_of_getElem? hsub)
    · exact h

end World

namespace Session

def Kept (settings : Settings) (P : σ → Prop) (Q : Command → τ → Prop) (A : Command → Prop)
    (s : Session σ τ) : Prop :=
  s.world.Kept settings P Q A s.now

variable {s : Session σ τ}

theorem Kept.settle (hT : T.Keeps P Q A) (h : s.Kept settings P Q A) :
    (s.settle T).Kept settings P Q A :=
  World.Kept.runReady hT h

theorem Kept.moveTo (hT : T.Keeps P Q A) (h : s.Kept settings P Q A) (time : Nat) :
    (s.moveTo T time).Kept settings P Q A :=
  World.Kept.catchUp hT h time

theorem Kept.elapse (hT : T.Keeps P Q A) (h : s.Kept settings P Q A) (limit : Nat)
    (stop : World σ τ → Bool) : (s.elapse T limit stop).Kept settings P Q A := by
  induction s using Session.elapse.induct T limit stop with
  | case1 s hstop => rwa [Session.elapse, if_pos hstop]
  | case2 s hstop hnone =>
    rw [Session.elapse, if_neg hstop]
    simpa only [hnone] using h
  | case3 s hstop due hdue hin ih =>
    rw [Session.elapse, if_neg hstop]
    simp only [hdue, if_pos hin]
    exact ih (h.moveTo hT due)
  | case4 s hstop due hdue hout =>
    rw [Session.elapse, if_neg hstop]
    simpa only [hdue, if_neg hout] using h

theorem Kept.advance (hT : T.Keeps P Q A) (h : s.Kept settings P Q A) (millis : Nat) :
    (s.advance T millis).Kept settings P Q A :=
  ((h.settle hT).elapse hT _ _).moveTo hT _

theorem Kept.waitUntil (hT : T.Keeps P Q A) (h : s.Kept settings P Q A) (limit ticket : Nat) :
    (s.waitUntil T limit ticket).1.Kept settings P Q A := by
  have helapse := (h.settle hT).elapse hT limit fun w => (w.report? ticket).isSome
  unfold Session.waitUntil
  dsimp only
  split
  · exact helapse
  · exact helapse.moveTo hT _

theorem Kept.submit (h : s.Kept settings P Q A) (hc : A c) (typed : Bool) :
    (s.submit c typed).1.Kept settings P Q A :=
  World.Kept.submit h hc typed

theorem Kept.cancel (h : s.Kept settings P Q A) (ticket : Nat) :
    (s.cancel ticket).1.Kept settings P Q A :=
  World.Kept.cancel h ticket

theorem Kept.onComplete (h : s.Kept settings P Q A) (ticket : Nat) :
    (s.onComplete ticket).1.Kept settings P Q A :=
  ⟨h.settings, h.state, h.permitted, h.flights, h.timers⟩

theorem Kept.release (h : s.Kept settings P Q A) (ticket : Nat) :
    (s.release ticket).Kept settings P Q A :=
  ⟨h.settings, h.state, h.permitted, h.flights, h.timers⟩

/-- A request that is sent past all commands keeps the session if any request keeps `P` and is
replied to. -/
theorem Kept.direct (hT : T.Keeps P Q A) (harrive : ∀ s r, P s → P (T.arrive s r).1)
    (hanswer : ∀ s taken, P s → P (T.answer s taken).1 ∧ ∃ r, (T.answer s taken).2 = .reply r)
    (h : s.Kept settings P Q A) (r : Request) : (s.direct T r).1.Kept settings P Q A := by
  have hstate := harrive s.world.state r h.state
  unfold Session.direct
  rcases hintake : T.arrive s.world.state r with ⟨state, intake⟩
  rw [hintake] at hstate
  dsimp only
  have harrived : Kept settings P Q A (s.modify fun w => { w with state := state }) :=
    World.Kept.withState h hstate
  generalize hwaited :
    (if intake.delay = 0 then s.modify fun w => { w with state := state } else _) = waited
  obtain ⟨now, hworld⟩ : ∃ now, waited.world.Kept settings P Q A now := by
    rw [← hwaited]
    split_ifs
    · exact ⟨_, harrived⟩
    · exact ⟨_, (harrived.settle hT).elapse hT _ _⟩
  obtain ⟨hanswered, reply, hreply⟩ := hanswer waited.world.state intake.taken hworld.state
  split
  · exact (hworld.withState hanswered).catchUp hT _
  · next hsilent => exact absurd (hreply.symm.trans hsilent) nofun
  · next hbroken => exact absurd (hreply.symm.trans hbroken) nofun

end Session

end Timeslice
