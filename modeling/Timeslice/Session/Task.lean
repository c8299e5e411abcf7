import Timeslice.Exchange.Transport
import Timeslice.Session.Coordination

/-!
# Tasks

A task runs one command over a transport. On its turn it first takes the answers whose time has come,
in the order in which they came due, then sends what the command can send. An answer that takes no
time is taken at once, before anything else is sent. When the command is settled, or the transport
breaks down, all its requests that are still in flight are abandoned.
-/

namespace Timeslice

/-- A request in flight, with the piece it is for. -/
structure Flight (τ : Type) where
  slot : Nat
  taken : τ

/-- A task that has not ended. -/
structure Task (τ : Type) where
  stage : Stage
  flights : List (Flight τ)
  /-- The requests whose answers have come due since the last turn. -/
  woken : List Nat

def Task.start {τ : Type} : Task τ := ⟨.unsent, [], []⟩

/-- A turn of a task as far as it has gone. -/
structure Turn (σ τ : Type) where
  state : σ
  stage : Stage
  flights : List (Flight τ)
  /-- The requests sent on this turn whose answers take time, and how long. -/
  sleeps : List (Nat × Nat)
  outcome : Option Outcome

namespace Turn

variable {σ τ : Type}

def advance (settings : Settings) (c : Command) (t : Turn σ τ) (slot : Nat)
    (reply : Except Rejection Response) : Turn σ τ :=
  match c.receive settings t.stage slot reply with
  | .goesOn stage => { t with stage := stage }
  | .settled outcome => { t with outcome := some outcome }

/-- Has the transport answer a request that is not among the flights. -/
def hear (T : Transport σ τ) (settings : Settings) (c : Command) (t : Turn σ τ) (slot : Nat)
    (taken : τ) : Turn σ τ :=
  let (state, answer) := T.answer t.state taken
  let t := { t with state := state }
  match answer with
  | .reply r => t.advance settings c slot r
  | .silent => { t with flights := t.flights ++ [⟨slot, taken⟩] }
  | .broken => { t with outcome := some (.error .aborted) }

def send (T : Transport σ τ) (settings : Settings) (c : Command) (t : Turn σ τ) (slot : Nat)
    (r : Request) : Turn σ τ :=
  let (state, intake) := T.arrive t.state r
  let t := { t with state := state }
  if intake.delay = 0 then t.hear T settings c slot intake.taken
  else
    { t with
      flights := t.flights ++ [⟨slot, intake.taken⟩]
      sleeps := t.sleeps ++ [(slot, intake.delay)] }

def wake (T : Transport σ τ) (settings : Settings) (c : Command) (t : Turn σ τ) (slot : Nat) :
    Turn σ τ :=
  if t.outcome.isSome then t
  else
    match t.flights.find? fun f => f.slot == slot with
    | none => t
    | some f =>
      { t with flights := t.flights.filter fun f => f.slot != slot }.hear T settings c slot f.taken

def openUp (T : Transport σ τ) (settings : Settings) (c : Command) (t : Turn σ τ) : Turn σ τ :=
  match t.outcome, t.stage with
  | none, .unsent => { t with stage := .opened }.send T settings c 0 c.opening
  | _, _ => t

def launch (T : Transport σ τ) (settings : Settings) (c : Command) :
    (n : Nat) → Turn σ τ → Turn σ τ
  | 0, t => t
  | n + 1, t =>
    match t.outcome, t.stage with
    | none, .gathering f =>
      match f.send? settings.concurrency.toNat with
      | some ((slot, piece), f) =>
        launch T settings c n
          ({ t with stage := .gathering f }.send T settings c slot ⟨c.table, .query piece⟩)
      | none => t
    | _, _ => t

def unsent (t : Turn σ τ) : Nat :=
  match t.stage with
  | .gathering f => f.unsent.length
  | _ => 0

def abandonAll (T : Transport σ τ) (state : σ) (flights : List (Flight τ)) : σ :=
  flights.foldl (fun state f => T.abandon state f.taken) state

/-- Abandons what is in flight once there is an outcome. -/
def close (T : Transport σ τ) (t : Turn σ τ) : Turn σ τ :=
  if t.outcome.isSome then { t with state := abandonAll T t.state t.flights, flights := [] } else t

end Turn

namespace Task

variable {σ τ : Type}

def run (T : Transport σ τ) (settings : Settings) (c : Command) (state : σ) (task : Task τ) :
    Turn σ τ :=
  let t : Turn σ τ := ⟨state, task.stage, task.flights, [], none⟩
  let t := task.woken.foldl (Turn.wake T settings c) t
  let t := t.openUp T settings c
  (Turn.launch T settings c t.unsent t).close T

end Task

end Timeslice
