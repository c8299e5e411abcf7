import Timeslice.Cluster.Tables
import Timeslice.Exchange.Transport

/-!
# The cluster as a transport

A cluster counts a request as in flight from its arrival until it is answered or abandoned. On
arrival it is also decided whether the request will be rejected, for want of security or by a
failure rule; all other requests meet the tables as they are when the answer is due.
-/

namespace Timeslice

structure Cluster where
  tables : Tables
  requiresSecurity : Bool
  secured : Bool
  origin : Int64
  latencies : List (Pattern × Nat)
  failures : List (Pattern × Rejection)
  served : List Request
  inFlight : Nat
  peak : Nat

namespace Cluster

def start (requiresSecurity secured : Bool) (origin : Int64)
    (latencies : List (Pattern × Nat)) : Cluster :=
  ⟨[], requiresSecurity, secured, origin, latencies, [], [], 0, 0⟩

/-- A request in flight and the rejection that waits for it. -/
structure Held where
  request : Request
  verdict : Option Rejection

def unsecured : Rejection :=
  ⟨.securityRequired, "Security is enabled, please STARTTLS first"⟩

def enter (c : Cluster) (r : Request) : Cluster :=
  { c with
    served := c.served ++ [r]
    inFlight := c.inFlight + 1
    peak := max c.peak (c.inFlight + 1) }

def leave (c : Cluster) : Cluster :=
  { c with inFlight := c.inFlight - 1 }

def judge (c : Cluster) (r : Request) : Intake Held :=
  if c.requiresSecurity && !c.secured then ⟨⟨r, some unsecured⟩, 0⟩
  else ⟨⟨r, Pattern.lookup c.failures r⟩, (Pattern.lookup c.latencies r).getD 0⟩

def apply (c : Cluster) (r : Request) : Cluster × Except Rejection Response :=
  match c.tables.apply c.origin r with
  | .ok (response, tables) => ({ c with tables := tables }, .ok response)
  | .error rejection => (c, .error rejection)

def conclude (c : Cluster) (h : Held) : Cluster × Except Rejection Response :=
  match h.verdict with
  | some rejection => (c, .error rejection)
  | none => c.apply h.request

def transport : Transport Cluster Held where
  arrive c r := (c.enter r, c.judge r)
  answer c h :=
    let (c, reply) := c.leave.conclude h
    (c, .reply reply)
  abandon c _ := c.leave

/-- Fails every later request that fits the pattern, unless an earlier rule does. -/
def failWhen (c : Cluster) (p : Pattern) (rejection : Rejection) : Cluster :=
  { c with failures := c.failures ++ [(p, rejection)] }

def clearHistory (c : Cluster) : Cluster :=
  { c with served := [], peak := 0 }

def querySpans (c : Cluster) : List (Option Span) :=
  c.served.filterMap fun r =>
    match r.payload with
    | .query piece => some piece.span
    | _ => none

end Cluster

end Timeslice
