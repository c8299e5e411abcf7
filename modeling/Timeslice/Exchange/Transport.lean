import Timeslice.Exchange.Basic

/-!
# Transports

A transport takes requests in and answers them. It says on arrival how long the answer will take;
the answer itself is made when that time is over, unless the request is abandoned before. It keeps
what it has to remember of a request until then.
-/

namespace Timeslice

inductive Answer where
  | reply (r : Except Rejection Response)
  /-- The answer never comes. -/
  | silent
  /-- The transport breaks down over the request. -/
  | broken

/-- What a transport remembers of a request, and the time in milliseconds to its answer. -/
structure Intake (τ : Type) where
  taken : τ
  delay : Nat

/-- A transport with states `σ` that remembers requests as `τ`. -/
structure Transport (σ τ : Type) where
  arrive : σ → Request → σ × Intake τ
  answer : σ → τ → σ × Answer
  abandon : σ → τ → σ

/-- A condition on requests; all parts of it that are given must hold. -/
structure Pattern where
  kind : Option CommandKind
  table : Option String
  start : Option Int64
  deriving DecidableEq

def Pattern.fits (p : Pattern) (r : Request) : Bool :=
  p.kind.all (· == r.kind) && p.table.all (· == r.table) &&
    p.start.all fun t => r.span?.any fun s => s.start == t

def Pattern.lookup {α : Type} (rules : List (Pattern × α)) (r : Request) : Option α :=
  (rules.find? fun rule => rule.1.fits r).map (·.2)

end Timeslice
