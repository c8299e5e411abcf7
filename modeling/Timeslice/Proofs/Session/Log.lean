import Timeslice.Proofs.Session.Turn

/-!
# The log of a transport

A transport can be made to log what becomes of the requests of one task: when each is sent, how it is
answered and when it is dropped. Requests are numbered in the order in which they are sent.
-/

namespace Timeslice

deriving instance DecidableEq for Answer

inductive Event where
  | sent (r : Request)
  | answered (number : Nat) (a : Answer)
  | dropped (number : Nat)
  deriving DecidableEq

abbrev Log := List Event

namespace Log

def requests (log : Log) : List Request :=
  log.filterMap fun
    | .sent r => some r
    | _ => none

def answers (log : Log) : List (Nat × Answer) :=
  log.filterMap fun
    | .answered number a => some (number, a)
    | _ => none

def drops (log : Log) : List Nat :=
  log.filterMap fun
    | .dropped number => some number
    | _ => none

def inFlight (log : Log) : Nat :=
  log.requests.length - (log.answers.length + log.drops.length)

def Bounded (k : Nat) (log : Log) : Prop :=
  ∀ past, past <+: log → inFlight past ≤ k

variable {log : Log} {k : Nat}

theorem requests_append (log log' : Log) :
    requests (log ++ log') = log.requests ++ log'.requests :=
  List.filterMap_append

theorem answers_append (log log' : Log) : answers (log ++ log') = log.answers ++ log'.answers :=
  List.filterMap_append

theorem drops_append (log log' : Log) : drops (log ++ log') = log.drops ++ log'.drops :=
  List.filterMap_append

theorem bounded_nil (k : Nat) : Bounded k [] := by
  intro past hpast
  rw [List.prefix_nil.mp hpast]
  exact Nat.zero_le k

theorem Bounded.append (h : Bounded k log) {e : Event} (he : inFlight (log ++ [e]) ≤ k) :
    Bounded k (log ++ [e]) := by
  intro past hpast
  rcases List.prefix_concat_iff.mp hpast with rfl | hpast
  · exact he
  · exact h past hpast

theorem Bounded.sent (h : Bounded k log) (hroom : log.inFlight < k) (r : Request) :
    Bounded k (log ++ [.sent r]) := by
  refine h.append ?_
  unfold inFlight at hroom ⊢
  rw [requests_append, answers_append, drops_append]
  simp only [requests, answers, drops, List.filterMap_cons, List.filterMap_nil, List.append_nil,
    List.length_append, List.length_singleton] at hroom ⊢
  omega

theorem Bounded.unsent (h : Bounded k log) {e : Event} (he : requests [e] = []) :
    Bounded k (log ++ [e]) := by
  refine h.append (Nat.le_trans ?_ (h log (List.prefix_refl log)))
  unfold inFlight
  rw [requests_append, answers_append, drops_append, he, List.append_nil, List.length_append,
    List.length_append]
  omega

theorem Bounded.answered (h : Bounded k log) (number : Nat) (a : Answer) :
    Bounded k (log ++ [.answered number a]) :=
  h.unsent rfl

theorem Bounded.dropped (h : Bounded k log) (number : Nat) :
    Bounded k (log ++ [.dropped number]) :=
  h.unsent rfl

theorem Bounded.droppedAll (h : Bounded k log) (numbers : List Nat) :
    Bounded k (log ++ numbers.map .dropped) := by
  induction numbers generalizing log with
  | nil => simpa using h
  | cons number rest ih =>
    rw [List.map_cons, ← List.singleton_append, ← List.append_assoc]
    exact ih (h.dropped number)

end Log

/-- The transport with a log. An answer that never comes leaves no trace in it. -/
def Transport.logged {σ τ : Type} (T : Transport σ τ) : Transport (σ × Log) (Nat × τ) where
  arrive s r :=
    let (state, intake) := T.arrive s.1 r
    ((state, s.2 ++ [.sent r]), ⟨(s.2.requests.length, intake.taken), intake.delay⟩)
  answer s h :=
    match T.answer s.1 h.2 with
    | (state, .silent) => ((state, s.2), .silent)
    | (state, a) => ((state, s.2 ++ [.answered h.1 a]), a)
  abandon s h := (T.abandon s.1 h.2, s.2 ++ [.dropped h.1])

namespace Transport

variable {σ τ : Type} {T : Transport σ τ}

theorem arrive_logged {s s' : σ × Log} {r : Request} {intake : Intake (Nat × τ)}
    (h : T.logged.arrive s r = (s', intake)) :
    s'.2 = s.2 ++ [.sent r] ∧ intake.taken.1 = s.2.requests.length := by
  cases h
  exact ⟨rfl, rfl⟩

theorem answer_logged_silent {s s' : σ × Log} {h : Nat × τ}
    (hanswer : T.logged.answer s h = (s', .silent)) : s'.2 = s.2 := by
  rcases hT : T.answer s.1 h.2 with ⟨state, a⟩
  cases a <;> simp only [logged, hT] at hanswer <;> cases hanswer
  rfl

theorem answer_logged {s s' : σ × Log} {h : Nat × τ} {a : Answer} (ha : a ≠ .silent)
    (hanswer : T.logged.answer s h = (s', a)) : s'.2 = s.2 ++ [.answered h.1 a] := by
  rcases hT : T.answer s.1 h.2 with ⟨state, b⟩
  cases b <;> simp only [logged, hT] at hanswer <;> cases hanswer
  · rfl
  · exact absurd rfl ha
  · rfl

theorem abandonAll_logged (s : σ × Log) (flights : List (Flight (Nat × τ))) :
    (Turn.abandonAll T.logged s flights).2 =
      s.2 ++ flights.map fun f => .dropped f.taken.1 := by
  unfold Turn.abandonAll
  induction flights generalizing s with
  | nil => simp
  | cons f rest ih =>
    rw [List.foldl_cons, ih, List.map_cons]
    simp [logged]

end Transport

end Timeslice
