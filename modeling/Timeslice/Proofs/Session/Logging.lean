import Timeslice.Proofs.Session.Log
import Timeslice.Proofs.Session.View

/-!
# A log changes nothing

A world over a transport with a log goes the same way as the world over the transport itself: what
happens in the one is what happens in the other with the log left out.
-/

namespace Timeslice

variable {σ τ : Type} {T : Transport σ τ} {settings : Settings} {c : Command}

def Flight.unlogged (f : Flight (Nat × τ)) : Flight τ :=
  ⟨f.slot, f.taken.2⟩

def Task.unlogged (task : Task (Nat × τ)) : Task τ :=
  ⟨task.stage, task.flights.map Flight.unlogged, task.woken⟩

theorem Transport.answer_unlogged (s : σ × Log) (h : Nat × τ) :
    ((T.logged.answer s h).1.1, (T.logged.answer s h).2) = T.answer s.1 h.2 := by
  rcases hT : T.answer s.1 h.2 with ⟨state, a⟩
  cases a <;> simp only [logged, hT]

namespace Turn

def unlogged (t : Turn (σ × Log) (Nat × τ)) : Turn σ τ :=
  ⟨t.state.1, t.stage, t.flights.map Flight.unlogged, t.sleeps, t.outcome⟩

variable {t : Turn (σ × Log) (Nat × τ)}

theorem unlogged_advance (slot : Nat) (reply : Except Rejection Response) :
    (t.advance settings c slot reply).unlogged = t.unlogged.advance settings c slot reply := by
  have hstage : t.unlogged.stage = t.stage := rfl
  unfold advance
  rw [hstage]
  cases c.receive settings t.stage slot reply <;> rfl

theorem unlogged_hear (slot : Nat) (taken : Nat × τ) :
    (t.hear T.logged settings c slot taken).unlogged = t.unlogged.hear T settings c slot taken.2 := by
  have hanswer : T.answer t.unlogged.state taken.2 =
      ((T.logged.answer t.state taken).1.1, (T.logged.answer t.state taken).2) :=
    (Transport.answer_unlogged t.state taken).symm
  unfold hear
  rw [hanswer]
  rcases T.logged.answer t.state taken with ⟨s, a⟩
  cases a with
  | reply r => exact unlogged_advance (t := { t with state := s }) slot r
  | silent =>
    simp only [unlogged, List.map_append, List.map_singleton]
    rfl
  | broken => rfl

theorem unlogged_send (slot : Nat) (r : Request) :
    (t.send T.logged settings c slot r).unlogged = t.unlogged.send T settings c slot r := by
  rcases harrive : T.arrive t.state.1 r with ⟨state, intake⟩
  have harrive' : T.arrive t.unlogged.state r = (state, intake) := harrive
  unfold send
  simp only [Transport.logged, harrive, harrive']
  split_ifs
  · exact unlogged_hear (t := { t with state := (state, t.state.2 ++ [.sent r]) }) slot _
  · simp only [unlogged, List.map_append, List.map_singleton]
    rfl

theorem unlogged_land (slot : Nat) : (t.land slot).unlogged = t.unlogged.land slot := by
  simp only [unlogged, land, List.filter_map]
  rfl

theorem unlogged_wake (slot : Nat) :
    (t.wake T.logged settings c slot).unlogged = t.unlogged.wake T settings c slot := by
  have hfind : t.unlogged.flights.find? (fun f => f.slot == slot) =
      (t.flights.find? fun f => f.slot == slot).map Flight.unlogged :=
    List.find?_map ..
  have houtcome : t.unlogged.outcome = t.outcome := rfl
  unfold wake
  rw [houtcome, hfind]
  split_ifs
  · rfl
  · cases hf : t.flights.find? fun f => f.slot == slot with
    | none => rfl
    | some f =>
      calc ((t.land slot).hear T.logged settings c slot f.taken).unlogged
        _ = (t.land slot).unlogged.hear T settings c slot f.taken.2 := unlogged_hear slot f.taken
        _ = (t.unlogged.land slot).hear T settings c slot f.taken.2 := by rw [unlogged_land]

theorem unlogged_wakeAll (woken : List Nat) :
    (woken.foldl (Turn.wake T.logged settings c) t).unlogged =
      woken.foldl (Turn.wake T settings c) t.unlogged := by
  induction woken generalizing t with
  | nil => rfl
  | cons slot rest ih => rw [List.foldl_cons, List.foldl_cons, ih, unlogged_wake]

theorem unlogged_openUp :
    (t.openUp T.logged settings c).unlogged = t.unlogged.openUp T settings c := by
  have houtcome : t.unlogged.outcome = t.outcome := rfl
  have hstage : t.unlogged.stage = t.stage := rfl
  unfold openUp
  rw [houtcome, hstage]
  split
  · exact unlogged_send (t := { t with stage := .opened }) 0 c.opening
  · rfl

theorem unlogged_launch (n : Nat) :
    (launch T.logged settings c n t).unlogged = launch T settings c n t.unlogged := by
  induction n generalizing t with
  | zero => rfl
  | succ n ih =>
    have houtcome : t.unlogged.outcome = t.outcome := rfl
    have hstage : t.unlogged.stage = t.stage := rfl
    rw [launch, launch, houtcome, hstage]
    split
    · split
      · next slot piece f' _ =>
        rw [ih]
        exact congrArg _ (unlogged_send (t := { t with stage := .gathering f' }) slot _)
      · rfl
    · rfl

theorem abandonAll_unlogged (s : σ × Log) (flights : List (Flight (Nat × τ))) :
    (abandonAll T.logged s flights).1 = abandonAll T s.1 (flights.map Flight.unlogged) := by
  unfold abandonAll
  induction flights generalizing s with
  | nil => rfl
  | cons f rest ih =>
    rw [List.foldl_cons, List.map_cons, List.foldl_cons, ih]
    rfl

theorem unlogged_close : (t.close T.logged).unlogged = t.unlogged.close T := by
  have houtcome : t.unlogged.outcome = t.outcome := rfl
  unfold close
  rw [houtcome]
  split_ifs
  · simp only [unlogged, abandonAll_unlogged, List.map_nil]
  · rfl

theorem unlogged_gather (schema : Schema) (s : σ × Log) :
    (gather T.logged settings c schema s).unlogged = gather T settings c schema s.1 := by
  have hunsent (t : Turn (σ × Log) (Nat × τ)) : t.unlogged.unsent = t.unsent := rfl
  unfold gather
  dsimp only
  rw [unlogged_close, unlogged_launch, ← hunsent, unlogged_advance]
  rfl

end Turn

theorem Task.unlogged_run (s : σ × Log) (task : Task (Nat × τ)) :
    (task.run T.logged settings c s).unlogged = task.unlogged.run T settings c s.1 := by
  unfold Task.run
  dsimp only
  rw [Turn.unlogged_close, Turn.unlogged_launch, Turn.unlogged_openUp, Turn.unlogged_wakeAll]
  have hunsent (t : Turn (σ × Log) (Nat × τ)) : t.unlogged.unsent = t.unsent := rfl
  rw [← hunsent, Turn.unlogged_openUp, Turn.unlogged_wakeAll]
  rfl

def Submission.unlogged (sub : Submission (Nat × τ)) : Submission τ :=
  ⟨sub.command, sub.typed, sub.standing, sub.task.map Task.unlogged⟩

namespace World

def unlogged (w : World (σ × Log) (Nat × τ)) : World σ τ :=
  ⟨w.settings, w.state.1, w.submissions.map Submission.unlogged, w.ready, w.timers, w.callbacks,
    w.released⟩

/-- The act in a world with a log, which does not log what happens beside the tasks. -/
def Act.logged : Act σ → Act (σ × Log)
  | .submit c typed => .submit c typed
  | .turn now ticket => .turn now ticket
  | .race now ticket => .race now ticket
  | .tearDown ticket => .tearDown ticket
  | .expire timer => .expire timer
  | .cancel ticket => .cancel ticket
  | .poll ticket => .poll ticket
  | .wait ticket => .wait ticket
  | .register ticket => .register ticket
  | .release ticket => .release ticket
  | .notify n => .notify n
  | .drift f => .drift fun s => (f s.1, s.2)

def logless (σ τ : Type) : View (σ × Log) (Nat × τ) σ τ :=
  ⟨Prod.fst, Flight.unlogged, id⟩

theorem respects_logless (T : Transport σ τ) :
    (logless σ τ).Respects T.logged T fun _ _ => True where
  run _ _ state task _ := Task.unlogged_run state task
  conclude _ _ _ _ _ _ _ _ := rfl
  abandon := Turn.abandonAll_unlogged

theorem shows_logged (τ : Type) (act : Act σ) : (logless σ τ).Shows act.logged act := by
  cases act with
  | drift f => exact .drift fun _ => rfl
  | submit | turn | race | tearDown | expire | cancel | poll | wait | register | release | notify =>
    constructor

theorem submission_unlogged (w : World (σ × Log) (Nat × τ)) (ticket : Nat) :
    w.unlogged.submissions[ticket]? = (w.submissions[ticket]?).map Submission.unlogged :=
  List.getElem?_map ..

/-- A run with a log, without the log, is the run without one. -/
theorem unlogged_run (T : Transport σ τ) (w : World (σ × Log) (Nat × τ)) (acts : List (Act σ)) :
    (w.run T.logged (acts.map Act.logged)).unlogged = w.unlogged.run T acts := by
  have hacts : List.Forall₂ (logless σ τ).Shows (acts.map Act.logged) acts :=
    List.forall₂_map_left_iff.mpr (List.forall₂_same.mpr fun act _ => shows_logged τ act)
  have hlasts : Lasts T.logged fun _ _ => True :=
    ⟨fun _ => trivial, fun _ _ _ _ _ => trivial, fun _ _ _ _ => trivial⟩
  exact ((respects_logless T).world_run hlasts (fun _ _ _ _ _ => trivial) hacts).1

theorem standing_unlogged (w : World (σ × Log) (Nat × τ)) (ticket : Nat) :
    w.unlogged.standing ticket = w.standing ticket :=
  View.standing_world (V := logless σ τ) w ticket

end World

end Timeslice
