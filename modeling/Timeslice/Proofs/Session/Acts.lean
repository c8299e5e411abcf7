import Mathlib.Tactic.Common
import Timeslice.Session.World

/-!
# What can happen in a world

Turns of tasks, ends of delays, calls on handles and requests of others come in any order. One of
them is an act; what the acts show of the submissions to those who ask is observed.
-/

namespace Timeslice.World

inductive Act (σ : Type) where
  | submit (c : Command) (typed : Bool)
  | turn (now ticket : Nat)
  /-- A task has a turn that a cancellation comes too late to stop. -/
  | race (now ticket : Nat)
  /-- A task is dropped, whether or not it has come to an end. -/
  | tearDown (ticket : Nat)
  | expire (timer : Timer)
  | cancel (ticket : Nat)
  | poll (ticket : Nat)
  | wait (ticket : Nat)
  | register (ticket : Nat)
  | release (ticket : Nat)
  | notify (callback : Nat)
  /-- The state of the transport changes by something else than the tasks. -/
  | drift (f : σ → σ)

inductive Observation where
  | cancelled (ticket : Nat) (won : Bool)
  | polled (ticket : Nat) (standing : Standing)
  | waited (ticket : Nat) (report : Except Failure Response)
  | handed (callback ticket : Nat) (report : Except Failure Response)
  deriving DecidableEq

variable {σ τ : Type}

def race (T : Transport σ τ) (now : Nat) (w : World σ τ) (ticket : Nat) : World σ τ :=
  match w.submissions[ticket]? with
  | none => w
  | some s =>
    match s.task with
    | none => w
    | some task => w.absorb now ticket s (task.run T w.settings s.command w.state)

def notify (w : World σ τ) (n : Nat) : World σ τ :=
  match w.callbacks[n]? with
  | none => w
  | some callback => { w with callbacks := w.callbacks.set n (w.hand callback) }

def perform (T : Transport σ τ) (w : World σ τ) : Act σ → World σ τ
  | .submit c typed => w.submit c typed
  | .turn now ticket => { w with ready := w.ready.erase ticket }.turn T now ticket
  | .race now ticket => w.race T now ticket
  | .tearDown ticket => w.tearDown T ticket
  | .expire timer => { w with timers := w.timers.erase timer }.expire timer
  | .cancel ticket => w.cancel ticket
  | .poll _ | .wait _ => w
  | .register ticket => w.register ticket
  | .release ticket => w.release ticket
  | .notify n => w.notify n
  | .drift f => { w with state := f w.state }

def isCancelling (w : World σ τ) (ticket : Nat) : Bool :=
  (w.submissions[ticket]?).any fun sub => sub.standing.isPending

def observe (w : World σ τ) : Act σ → Option Observation
  | .cancel ticket => some (.cancelled ticket (w.isCancelling ticket))
  | .poll ticket => some (.polled ticket (w.standing ticket))
  | .wait ticket => (w.report? ticket).map (.waited ticket)
  | .notify n =>
    (w.callbacks[n]?).bind fun callback =>
      if callback.handed.isSome then none
      else (w.report? callback.ticket).map (.handed n callback.ticket)
  | _ => none

def run (T : Transport σ τ) (w : World σ τ) (acts : List (Act σ)) : World σ τ :=
  acts.foldl (perform T) w

def observed (T : Transport σ τ) (w : World σ τ) : List (Act σ) → List Observation
  | [] => []
  | act :: acts => (w.observe act).toList ++ (w.perform T act).observed T acts

variable {T : Transport σ τ} {w : World σ τ}

theorem run_append (past rest : List (Act σ)) :
    w.run T (past ++ rest) = (w.run T past).run T rest :=
  List.foldl_append

theorem run_cons (act : Act σ) (acts : List (Act σ)) :
    w.run T (act :: acts) = (w.perform T act).run T acts :=
  rfl

theorem run_induction {P : World σ τ → Prop} {acts : List (Act σ)} (h : P w)
    (hstep : ∀ w, ∀ act ∈ acts, P w → P (w.perform T act)) : P (w.run T acts) := by
  induction acts generalizing w with
  | nil => exact h
  | cons act acts ih =>
    exact ih (hstep w act List.mem_cons_self h)
      fun w act hact => hstep w act (List.mem_cons_of_mem _ hact)

end Timeslice.World
