import Timeslice.Proofs.Cluster.Effects
import Timeslice.Proofs.Session.Preservation

/-!
# The schemas of a cluster's tables

A table keeps its schema for good: once it is there, requests for it are answered with that schema
and requests to create it again are refused. This holds whatever else goes on in the cluster. It can
only be withheld by failure rules, which are not about tables.
-/

namespace Timeslice

namespace Tables

def Has (ts : Tables) (schema : Schema) : Prop :=
  (ts.find? schema.name).map (·.schema) = some schema

variable {ts ts' : Tables} {origin : Int64} {r : Request} {response : Response} {schema : Schema}

theorem has_iff : ts.Has schema ↔ ∃ shelf, ts.find? schema.name = some shelf ∧ shelf.schema = schema :=
  Option.map_eq_some_iff

theorem Has.ne_nil (h : ts.Has schema) : ts ≠ [] := by
  rintro rfl
  cases h

theorem has_of_create {table : String}
    (h : ts.apply origin ⟨table, .createTable schema⟩ = .ok (response, ts')) : ts'.Has schema := by
  obtain ⟨created, hcreate, heq⟩ := Except.exists_of_map h
  cases heq
  have hnew : ts.find? schema.name = none := by
    cases hfind : ts.find? schema.name with
    | none => rfl
    | some shelf =>
      unfold create at hcreate
      simp only [hfind, Option.isSome_some, if_true] at hcreate
      split at hcreate <;> cases hcreate
  rw [eq_of_create hcreate, has_iff]
  refine ⟨.empty schema, ?_, rfl⟩
  rw [find?_create, hnew, if_pos rfl, Option.none_or]

theorem Has.apply (h : ts.Has schema) (happly : ts.apply origin r = .ok (response, ts')) :
    ts'.Has schema := by
  obtain ⟨shelf, hfind, hschema⟩ := has_iff.mp h
  rw [has_iff]
  rcases apply_cases happly with rfl | ⟨other, -, rfl⟩ | ⟨old, new, hold, hsame, rfl⟩
  · exact ⟨shelf, hfind, hschema⟩
  · exact ⟨shelf, by rw [find?_create, hfind, Option.some_or], hschema⟩
  · by_cases hname : schema.name = new.schema.name
    · have htarget : r.target = schema.name := by rw [hname, hsame, name_of_find? hold]
      obtain rfl : old = shelf := Option.some.inj (hold.symm.trans (htarget ▸ hfind))
      refine ⟨new, ?_, hsame.trans hschema⟩
      rw [find?_update, if_pos hname, hfind]
      rfl
    · exact ⟨shelf, by rw [find?_update, if_neg hname, hfind], hschema⟩

theorem Has.describe (h : ts.Has schema) (origin : Int64) :
    ts.apply origin ⟨schema.name, .describeTable⟩ = .ok (.table schema, ts) := by
  obtain ⟨shelf, hfind, rfl⟩ := has_iff.mp h
  simp only [Tables.apply, hfind]

theorem Has.create (h : ts.Has schema) {schema' : Schema} (hname : schema'.name = schema.name)
    (origin : Int64) (table : String) :
    ∃ message, ts.apply origin ⟨table, .createTable schema'⟩ = .error ⟨.schema, message⟩ := by
  obtain ⟨shelf, hfind, -⟩ := has_iff.mp h
  rw [← hname] at hfind
  cases hcheck : schema'.check with
  | error fault => exact ⟨_, Rejects.apply_eq (.invalid hcheck)⟩
  | ok _ => exact ⟨_, Rejects.apply_eq (.duplicate hcheck hfind)⟩

end Tables

namespace Cluster

variable {accepts : Prop} {rules : List (Pattern × Rejection)} {c : Cluster} {held : Held}
  {schema : Schema}

/-- A rejection that does not come from the tables: the session is not accepted, or a failure rule
has fitted the request. -/
def Bars (accepts : Prop) (rules : List (Pattern × Rejection)) (rejection : Rejection) : Prop :=
  ¬accepts ∧ rejection = unsecured ∨ ∃ p, (p, rejection) ∈ rules

structure Held.Governed (accepts : Prop) (rules : List (Pattern × Rejection)) (held : Held) :
    Prop where
  barred : ∀ rejection, held.verdict = some rejection → Bars accepts rules rejection
  accepted : held.verdict = none → accepts

/-- The cluster takes in requests by these terms, and has no table where it accepts no session. -/
structure Governed (accepts : Prop) (rules : List (Pattern × Rejection)) (c : Cluster) : Prop where
  accepts_iff : c.Accepts ↔ accepts
  failures : ∀ rule ∈ c.failures, rule ∈ rules
  tables : c.tables ≠ [] → accepts

theorem governed_start (requiresSecurity secured : Bool) (origin : Int64)
    (latencies : List (Pattern × Nat)) (rules : List (Pattern × Rejection)) :
    (start requiresSecurity secured origin latencies).Governed
      (start requiresSecurity secured origin latencies).Accepts rules :=
  ⟨Iff.rfl, by rintro rule ⟨⟩, fun h => absurd rfl h⟩

theorem governed_judge (h : c.Governed accepts rules) (r : Request) :
    (c.judge r).taken.Governed accepts rules := by
  by_cases haccepts : c.Accepts
  · rw [taken_of_accepts haccepts]
    refine ⟨fun rejection hverdict => ?_, fun _ => h.accepts_iff.mp haccepts⟩
    obtain ⟨⟨p, other⟩, hrule, rfl⟩ := Option.map_eq_some_iff.mp hverdict
    exact .inr ⟨p, h.failures _ (List.mem_of_find?_eq_some hrule)⟩
  · rw [taken_of_not_accepts haccepts]
    refine ⟨?_, by rintro ⟨⟩⟩
    rintro rejection ⟨⟩
    exact .inl ⟨mt h.accepts_iff.mpr haccepts, rfl⟩

theorem Governed.conclude (h : c.Governed accepts rules) (hheld : held.Governed accepts rules) :
    (c.conclude held).1.Governed accepts rules := by
  unfold Cluster.conclude
  split
  · exact h
  · next hverdict =>
    unfold Cluster.apply
    split
    · exact ⟨h.accepts_iff, h.failures, fun _ => hheld.accepted hverdict⟩
    · exact h

theorem has_conclude (h : c.tables.Has schema) (held : Held) :
    (c.conclude held).1.tables.Has schema := by
  unfold conclude
  split
  · exact h
  · unfold Cluster.apply
    split
    · next happly => exact h.apply happly
    · exact h

theorem keeps_governed : transport.Keeps (Governed accepts rules)
    (fun _ held => held.Governed accepts rules) fun _ => True where
  arrive _ _ r _ _ h := ⟨⟨h.accepts_iff, h.failures, h.tables⟩, governed_judge h r⟩
  answer _ _ _ _ hheld h := Governed.conclude ⟨h.accepts_iff, h.failures, h.tables⟩ hheld
  abandon _ _ h := ⟨h.accepts_iff, h.failures, h.tables⟩

theorem keeps_has : transport.Keeps (fun c => c.tables.Has schema) (fun _ _ => True) fun _ => True where
  arrive _ _ _ _ _ h := ⟨h, trivial⟩
  answer _ c held _ _ h := has_conclude (c := c.leave) h held
  abandon _ _ h := h

/-- What others can do to a cluster past the tasks of a client: they send requests and give them up,
have requests answered that have arrived at any time before, add failure rules and clear the
history. -/
inductive Use (accepts : Prop) (rules : List (Pattern × Rejection)) : (Cluster → Cluster) → Prop where
  | arrive (r : Request) : Use accepts rules fun c => (transport.arrive c r).1
  | answer {arrived : Cluster} (r : Request) (h : arrived.Governed accepts rules) :
    Use accepts rules fun c => (outcome arrived c r).1
  | abandon (held : Held) : Use accepts rules fun c => transport.abandon c held
  | failWhen {p : Pattern} {rejection : Rejection} (h : (p, rejection) ∈ rules) :
    Use accepts rules fun c => c.failWhen p rejection
  | clearHistory : Use accepts rules clearHistory

theorem Use.governed {f : Cluster → Cluster} (hf : Use accepts rules f)
    (h : c.Governed accepts rules) : (f c).Governed accepts rules := by
  cases hf with
  | arrive | abandon | clearHistory => exact ⟨h.accepts_iff, h.failures, h.tables⟩
  | answer r harrived =>
    exact Governed.conclude ⟨h.accepts_iff, h.failures, h.tables⟩ (governed_judge harrived r)
  | failWhen hrule =>
    refine ⟨h.accepts_iff, fun rule hmem => ?_, h.tables⟩
    rcases List.mem_append.mp hmem with hmem | hmem
    · exact h.failures rule hmem
    · rwa [List.mem_singleton.mp hmem]

theorem Use.has {f : Cluster → Cluster} (hf : Use accepts rules f) (h : c.tables.Has schema) :
    (f c).tables.Has schema := by
  cases hf with
  | arrive | abandon | failWhen | clearHistory => exact h
  | answer r => exact has_conclude (c := c.leave) h _

end Cluster

end Timeslice
