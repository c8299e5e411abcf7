import Timeslice.Session.Task

/-!
# Submissions, tasks and delays

A submitted command has a standing, which leaves `pending` once, a handle until the handle is let go
and a task until the task ends. The tasks that can run are kept in a queue and have their turns
first-in first-out; no turn puts a task into the queue. A cancelled command's task is dropped on its
next turn. Callbacks are handed the outcome after the turns.
-/

namespace Timeslice

inductive Standing where
  | pending
  | resolved (response : Response)
  | failed (failure : Failure)
  | cancelled
  deriving DecidableEq

namespace Standing

def isPending : Standing → Bool
  | pending => true
  | _ => false

theorem isPending_iff {s : Standing} : s.isPending = true ↔ s = pending := by
  cases s <;> simp [isPending]

def report? (c : Command) : Standing → Option (Except Failure Response)
  | pending => none
  | resolved response => some (.ok response)
  | failed failure => some (.error failure)
  | cancelled => some (.error (c.failure .cancelled))

/-- The first standing that is not pending stays. -/
def settle (s new : Standing) : Standing :=
  if s.isPending then new else s

theorem settle_of_ne_pending {s : Standing} (h : s ≠ pending) (new : Standing) :
    s.settle new = s :=
  if_neg (mt isPending_iff.mp h)

/-- What one who waits for a command sees of it in the end. If nobody is left who could settle the
command, the wait ends as if it had been cancelled. -/
def seen? (attended : Bool) (s : Standing) : Option Standing :=
  if s.isPending then (if attended then none else some cancelled) else some s

/-- What a wait for a command comes to. -/
def await? (c : Command) (attended : Bool) (s : Standing) :
    Option (Except Failure Response) :=
  (s.seen? attended).map fun seen => (seen.report? c).getD (.error (c.failure .cancelled))

theorem await?_of_ne_pending {s : Standing} (h : s ≠ pending) (c : Command) (attended : Bool) :
    s.await? c attended = s.report? c := by
  cases s <;> first | rfl | exact absurd rfl h

end Standing

structure Submission (τ : Type) where
  command : Command
  /-- Whether the response must be of the shape that the command's kind yields. -/
  typed : Bool
  standing : Standing
  task : Option (Task τ)

/-- The submission once its task is gone. A task that goes without an outcome leaves the command
aborted. -/
def Submission.withoutTask {τ : Type} (s : Submission τ) : Submission τ :=
  { s with standing := s.standing.settle (.failed (s.command.failure .aborted)), task := none }

theorem Submission.withoutTask_of_settled {τ : Type} {s : Submission τ}
    (h : s.standing ≠ .pending) : s.withoutTask = { s with task := none } := by
  rw [withoutTask, Standing.settle_of_ne_pending h]

def Command.conclude (c : Command) (typed : Bool) : Outcome → Standing
  | .error cause => .failed (c.failure cause)
  | .ok response =>
    if typed && response.shape != c.kind.shape then .failed (c.failure .wrongShape)
    else .resolved response

/-- A delay that ends at `due`, for a request of a submission. -/
structure Timer where
  due : Nat
  ticket : Nat
  slot : Nat
  deriving DecidableEq

structure Callback where
  ticket : Nat
  handed : Option (Except Failure Response)

structure World (σ τ : Type) where
  settings : Settings
  state : σ
  submissions : List (Submission τ)
  /-- The tasks that can run, first come first. -/
  ready : List Nat
  /-- The delays that have begun and not ended, oldest first. -/
  timers : List Timer
  callbacks : List Callback
  released : List Nat

namespace World

variable {σ τ : Type}

def start (settings : Settings) (state : σ) : World σ τ :=
  ⟨settings, state, [], [], [], [], []⟩

def standing (w : World σ τ) (ticket : Nat) : Standing :=
  (w.submissions[ticket]?).elim .pending (·.standing)

/-- The handle of the submission or its task is still there. -/
def attends (w : World σ τ) (ticket : Nat) (s : Submission τ) : Bool :=
  !w.released.contains ticket || s.task.isSome

def report? (w : World σ τ) (ticket : Nat) : Option (Except Failure Response) :=
  (w.submissions[ticket]?).bind fun s => s.standing.await? s.command (w.attends ticket s)

def enqueue (w : World σ τ) (ticket : Nat) : World σ τ :=
  if w.ready.contains ticket then w else { w with ready := w.ready ++ [ticket] }

def submit (w : World σ τ) (c : Command) (typed : Bool) : World σ τ :=
  { w with
    submissions := w.submissions ++ [⟨c, typed, .pending, some .start⟩]
    ready := w.ready ++ [w.submissions.length] }

def cancel (w : World σ τ) (ticket : Nat) : World σ τ :=
  match w.submissions[ticket]? with
  | none => w
  | some s =>
    if s.standing.isPending then
      { w with submissions := w.submissions.set ticket { s with standing := .cancelled } }.enqueue
        ticket
    else w

def register (w : World σ τ) (ticket : Nat) : World σ τ :=
  { w with callbacks := w.callbacks ++ [⟨ticket, none⟩] }

section Reports

variable {w : World σ τ} {ticket : Nat} {s : Submission τ}

theorem report?_of_pending (hs : w.submissions[ticket]? = some s) (hpending : s.standing = .pending)
    (htask : s.task.isSome = true) : w.report? ticket = none := by
  simp [report?, hs, hpending, attends, htask, Standing.await?, Standing.seen?, Standing.isPending]

theorem report?_of_settled (hs : w.submissions[ticket]? = some s)
    (hsettled : s.standing ≠ .pending) : w.report? ticket = s.standing.report? s.command := by
  rw [report?, hs, Option.bind_some, Standing.await?_of_ne_pending hsettled]

end Reports

/-- Lets the handle of a submission go, which does not cancel the command. -/
def release (w : World σ τ) (ticket : Nat) : World σ τ :=
  { w with released := w.released ++ [ticket] }

def dropTimers (ticket : Nat) (timers : List Timer) : List Timer :=
  timers.filter fun t => t.ticket != ticket

def drop (T : Transport σ τ) (w : World σ τ) (ticket : Nat) (s : Submission τ) (task : Task τ) :
    World σ τ :=
  { w with
    state := Turn.abandonAll T w.state task.flights
    submissions := w.submissions.set ticket s.withoutTask
    timers := dropTimers ticket w.timers }

/-- Drops the task of a submission whether or not it has come to an end. -/
def tearDown (T : Transport σ τ) (w : World σ τ) (ticket : Nat) : World σ τ :=
  match w.submissions[ticket]? with
  | none => w
  | some s =>
    match s.task with
    | none => w
    | some task => w.drop T ticket s task

def absorb (now : Nat) (w : World σ τ) (ticket : Nat) (s : Submission τ) (t : Turn σ τ) :
    World σ τ :=
  match t.outcome with
  | some outcome =>
    { w with
      state := t.state
      submissions := w.submissions.set ticket
        { s with standing := s.standing.settle (s.command.conclude s.typed outcome), task := none }
      timers := dropTimers ticket w.timers }
  | none =>
    { w with
      state := t.state
      submissions := w.submissions.set ticket { s with task := some ⟨t.stage, t.flights, []⟩ }
      timers := w.timers ++ t.sleeps.map fun (slot, delay) => ⟨now + delay, ticket, slot⟩ }

def turn (T : Transport σ τ) (now : Nat) (w : World σ τ) (ticket : Nat) : World σ τ :=
  match w.submissions[ticket]? with
  | none => w
  | some s =>
    match s.task with
    | none => w
    | some task =>
      if s.standing.isPending then
        w.absorb now ticket s (task.run T w.settings s.command w.state)
      else w.drop T ticket s task

def hand (w : World σ τ) (c : Callback) : Callback :=
  if c.handed.isSome then c else { c with handed := w.report? c.ticket }

def handOut (w : World σ τ) : World σ τ :=
  { w with callbacks := w.callbacks.map w.hand }

def runReady (T : Transport σ τ) (now : Nat) (w : World σ τ) : World σ τ :=
  (w.ready.foldl (turn T now) { w with ready := [] }).handOut

/-- Notes for a task that a delay has ended, and puts the task into the queue. -/
def expire (w : World σ τ) (t : Timer) : World σ τ :=
  match w.submissions[t.ticket]? with
  | none => w
  | some s =>
    match s.task with
    | none => w
    | some task =>
      { w with
        submissions := w.submissions.set t.ticket
          { s with task := some { task with woken := task.woken ++ [t.slot] } } }.enqueue t.ticket

/-- Ends the delays that are over at this time, in the order in which they began, and gives the
tasks their turns. -/
def catchUp (T : Transport σ τ) (now : Nat) (w : World σ τ) : World σ τ :=
  let ended := w.timers.filter fun t => t.due ≤ now
  (ended.foldl expire { w with timers := w.timers.filter fun t => !(t.due ≤ now) }).runReady T now

def nextDue? (w : World σ τ) : Option Nat :=
  (w.timers.map (·.due)).min?

end World

end Timeslice
