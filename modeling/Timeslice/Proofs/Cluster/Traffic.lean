import Timeslice.Proofs.Cluster.Refinement

/-!
# The states that a cluster can reach

Requests arrive one by one and are held until they are answered or abandoned, in any order. Between
them, failure rules may be added and the history may be cleared. Whatever happens, the tables stay
orderly and the cluster keeps its origin.
-/

namespace Timeslice

/-- A cluster and the requests that it holds, in the order of their arrival. -/
structure Traffic where
  cluster : Cluster
  held : List Cluster.Held

namespace Traffic

open Cluster (transport)

/-- What can happen to a cluster; held requests are named by their place. -/
inductive Event where
  | arrive (r : Request)
  | answer (place : Nat)
  | abandon (place : Nat)
  | failWhen (p : Pattern) (rejection : Rejection)
  | clearHistory

def start (requiresSecurity secured : Bool) (origin : Int64) (latencies : List (Pattern × Nat)) :
    Traffic :=
  ⟨.start requiresSecurity secured origin latencies, []⟩

/-- One event; nothing happens where no request is held. -/
def step (t : Traffic) : Event → Traffic
  | .arrive r =>
    let (c, intake) := transport.arrive t.cluster r
    ⟨c, t.held ++ [intake.taken]⟩
  | .answer place =>
    match t.held[place]? with
    | none => t
    | some held => ⟨(transport.answer t.cluster held).1, t.held.eraseIdx place⟩
  | .abandon place =>
    match t.held[place]? with
    | none => t
    | some held => ⟨transport.abandon t.cluster held, t.held.eraseIdx place⟩
  | .failWhen p rejection => { t with cluster := t.cluster.failWhen p rejection }
  | .clearHistory => { t with cluster := t.cluster.clearHistory }

def run (t : Traffic) (events : List Event) : Traffic :=
  events.foldl step t

structure IsOrderly (origin : Int64) (t : Traffic) : Prop where
  tables : t.cluster.tables.IsOrderly
  origin : t.cluster.origin = origin

variable {origin : Int64} {t : Traffic}

theorem isOrderly_conclude {c : Cluster} (h : c.tables.IsOrderly) (held : Cluster.Held) :
    (c.conclude held).1.tables.IsOrderly ∧ (c.conclude held).1.origin = c.origin := by
  unfold Cluster.conclude
  split
  · exact ⟨h, rfl⟩
  · refine ⟨?_, Cluster.origin_apply c held.request⟩
    rw [Cluster.tables_apply]
    exact (h.follows c.origin held.request).1

theorem IsOrderly.step (h : t.IsOrderly origin) (event : Event) :
    (t.step event).IsOrderly origin := by
  cases event with
  | arrive r => exact ⟨h.tables, h.origin⟩
  | answer place =>
    unfold Traffic.step
    dsimp only
    split
    · exact h
    · next held _ =>
      obtain ⟨htables, horigin⟩ := isOrderly_conclude (c := t.cluster.leave) h.tables held
      exact ⟨htables, horigin.trans h.origin⟩
  | abandon place =>
    unfold Traffic.step
    dsimp only
    split
    · exact h
    · exact ⟨h.tables, h.origin⟩
  | failWhen p rejection => exact ⟨h.tables, h.origin⟩
  | clearHistory => exact ⟨h.tables, h.origin⟩

theorem IsOrderly.run (h : t.IsOrderly origin) (events : List Event) :
    (t.run events).IsOrderly origin := by
  induction events generalizing t with
  | nil => exact h
  | cons event rest ih => exact ih (h.step event)

theorem isOrderly_start (requiresSecurity secured : Bool) (origin : Int64)
    (latencies : List (Pattern × Nat)) :
    (start requiresSecurity secured origin latencies).IsOrderly origin :=
  ⟨⟨by rintro shelf ⟨⟩, .nil⟩, rfl⟩

end Traffic

end Timeslice
