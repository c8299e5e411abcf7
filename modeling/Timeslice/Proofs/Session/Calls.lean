import Timeslice.Proofs.Session.Preservation

/-!
# What is asked of a session

All that a session goes through is a list of calls. What no command destroys holds after each of
them.
-/

namespace Timeslice.Session

inductive Call where
  | submit (c : Command) (typed : Bool)
  | cancel (ticket : Nat)
  | onComplete (ticket : Nat)
  | release (ticket : Nat)
  | settle
  | advance (millis : Nat)
  | waitUntil (limit ticket : Nat)
  | direct (r : Request)

variable {σ τ : Type}

def call (T : Transport σ τ) (s : Session σ τ) : Call → Session σ τ
  | .submit c typed => (s.submit c typed).1
  | .cancel ticket => (s.cancel ticket).1
  | .onComplete ticket => (s.onComplete ticket).1
  | .release ticket => s.release ticket
  | .settle => s.settle T
  | .advance millis => s.advance T millis
  | .waitUntil limit ticket => (s.waitUntil T limit ticket).1
  | .direct r => (s.direct T r).1

def calls (T : Transport σ τ) (s : Session σ τ) (cs : List Call) : Session σ τ :=
  cs.foldl (call T) s

variable {T : Transport σ τ} {settings : Settings} {P : σ → Prop} {Q : Command → τ → Prop}
  {s : Session σ τ}

theorem kept_start {A : Command → Prop} {state : σ} (h : P state) :
    (start settings state : Session σ τ).Kept settings P Q A :=
  ⟨rfl, h, by rintro sub ⟨⟩, by rintro sub ⟨⟩, by rintro timer ⟨⟩⟩

theorem Kept.call (hT : T.Keeps P Q fun _ => True) (harrive : ∀ s r, P s → P (T.arrive s r).1)
    (hanswer : ∀ s taken, P s → P (T.answer s taken).1 ∧ ∃ r, (T.answer s taken).2 = .reply r)
    (h : s.Kept settings P Q fun _ => True) (call : Call) :
    (s.call T call).Kept settings P Q fun _ => True := by
  cases call with
  | submit c typed => exact h.submit trivial typed
  | cancel ticket => exact h.cancel ticket
  | onComplete ticket => exact h.onComplete ticket
  | release ticket => exact h.release ticket
  | settle => exact h.settle hT
  | advance millis => exact h.advance hT millis
  | waitUntil limit ticket => exact h.waitUntil hT limit ticket
  | direct r => exact h.direct hT harrive hanswer r

theorem Kept.calls (hT : T.Keeps P Q fun _ => True) (harrive : ∀ s r, P s → P (T.arrive s r).1)
    (hanswer : ∀ s taken, P s → P (T.answer s taken).1 ∧ ∃ r, (T.answer s taken).2 = .reply r)
    (h : s.Kept settings P Q fun _ => True) (cs : List Call) :
    (s.calls T cs).Kept settings P Q fun _ => True := by
  induction cs generalizing s with
  | nil => exact h
  | cons call rest ih => exact ih (h.call hT harrive hanswer call)

end Timeslice.Session
