import Timeslice.Session.World

/-!
# Sessions

A session is a client over a transport on a virtual clock. Tasks run only when the session is
asked to settle or to let time pass. Time moves straight to the end of the next delay, and every
task that can then run has its turn before time moves on.
-/

namespace Timeslice

structure Session (σ τ : Type) where
  now : Nat
  world : World σ τ

inductive Direct where
  | answered (reply : Except Rejection Response)
  | unanswered

namespace Session

variable {σ τ : Type}

def start (settings : Settings) (state : σ) : Session σ τ :=
  ⟨0, .start settings state⟩

/-- How long a command is waited for, in milliseconds. -/
def patience : Nat := 3600000

def modify (s : Session σ τ) (f : World σ τ → World σ τ) : Session σ τ :=
  { s with world := f s.world }

/-- Submits a command; the ticket is what later calls name it by. -/
def submit (s : Session σ τ) (c : Command) (typed : Bool) : Session σ τ × Nat :=
  (s.modify fun w => w.submit c typed, s.world.submissions.length)

/-- Whether the call cancelled the command, which it does if the command is pending. -/
def cancel (s : Session σ τ) (ticket : Nat) : Session σ τ × Bool :=
  (s.modify fun w => w.cancel ticket,
    (s.world.submissions[ticket]?).any fun sub => sub.standing.isPending)

/-- Registers a callback; callbacks are numbered from zero. -/
def onComplete (s : Session σ τ) (ticket : Nat) : Session σ τ × Nat :=
  (s.modify fun w => w.register ticket, s.world.callbacks.length)

def release (s : Session σ τ) (ticket : Nat) : Session σ τ :=
  s.modify fun w => w.release ticket

def settle (T : Transport σ τ) (s : Session σ τ) : Session σ τ :=
  s.modify fun w => w.runReady T s.now

def moveTo (T : Transport σ τ) (s : Session σ τ) (time : Nat) : Session σ τ :=
  ⟨time, s.world.catchUp T time⟩

/-- Lets time pass up to the last delay that ends before `limit`, or until `stop` holds. -/
def elapse (T : Transport σ τ) (limit : Nat) (stop : World σ τ → Bool) (s : Session σ τ) :
    Session σ τ :=
  if stop s.world then s
  else
    match s.world.nextDue? with
    | none => s
    | some due =>
      if s.now < due ∧ due < limit then elapse T limit stop (s.moveTo T due) else s
termination_by limit - s.now
decreasing_by
  simp only [moveTo]
  omega

def advance (T : Transport σ τ) (s : Session σ τ) (millis : Nat) : Session σ τ :=
  let limit := s.now + millis
  ((s.settle T).elapse T limit fun _ => false).moveTo T limit

def waitUntil (T : Transport σ τ) (limit : Nat) (s : Session σ τ) (ticket : Nat) :
    Session σ τ × Option (Except Failure Response) :=
  let s := (s.settle T).elapse T limit fun w => (w.report? ticket).isSome
  match s.world.report? ticket with
  | some report => (s, some report)
  | none => (s.moveTo T limit, none)

def wait (T : Transport σ τ) (s : Session σ τ) (ticket : Nat) :
    Session σ τ × Option (Except Failure Response) :=
  s.waitUntil T (s.now + patience) ticket

/-- Waits for nothing, but as long as for a command that never settles. -/
def idle (T : Transport σ τ) (s : Session σ τ) : Session σ τ :=
  s.advance T patience

/-- Sends one request straight to the transport. It arrives before the queued tasks run, and is
answered before the tasks whose delays end with its own. -/
def direct (T : Transport σ τ) (s : Session σ τ) (r : Request) : Session σ τ × Direct :=
  let (state, intake) := T.arrive s.world.state r
  let s := s.modify fun w => { w with state := state }
  let due := s.now + intake.delay
  let s :=
    if intake.delay = 0 then s
    else { (s.settle T).elapse T due (fun _ => false) with now := due }
  let (state, answer) := T.answer s.world.state intake.taken
  let s := s.modify fun w => { w with state := state }
  match answer with
  | .reply reply => (s.moveTo T s.now, .answered reply)
  | .silent | .broken =>
    let s := s.idle T
    (s.modify fun w => { w with state := T.abandon w.state intake.taken }, .unanswered)

end Session

end Timeslice
