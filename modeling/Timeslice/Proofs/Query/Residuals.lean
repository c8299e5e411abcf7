import Timeslice.Proofs.Predicate.Refusing
import Timeslice.Proofs.Predicate.Splitting
import Timeslice.Proofs.Query.Answering

/-!
# Residuals that the cluster can read

A residual is sent as text. The cluster reads it as a predicate exactly if the SELECT has only
finite decimals, for no bound on the time is a decimal and the residual keeps all other comparisons.
A decimal beyond the greatest finite one is read as infinity, whose text is a name.
-/

namespace Timeslice

theorem Literal.isFinite_of_millis {l : Literal} {instant : Int64} (h : l.millis? = some instant) :
    l.IsFinite := by
  cases l with
  | text s => trivial
  | integer v => trivial
  | decimal v => cases h
  | truth b => cases h

theorem Predicate.isFinite_residual_iff {column : String} {p r : Predicate} {split : TimeSplit}
    (hsplit : p.splitTime column = .ok split) (hr : split.residual = some r) :
    r.IsFinite ↔ p.IsFinite := by
  constructor
  · intro h
    apply all_of_splitTime hsplit fun _ _ => Literal.isFinite_of_millis
    intro r' hr'
    cases hr.symm.trans hr'
    exact h
  · exact fun h => all_residual_of_splitTime hsplit h r hr

namespace Schema

variable {s : Schema} {settings : Settings} {select : Select} {plan : Plan} {piece : Piece}

theorem exists_split_of_residual (h : s.plan settings select = .ok plan)
    (hpiece : piece ∈ plan.pieces) {text : String} (htext : piece.residual = some text) :
    ∃ p split r, select.predicate = some p ∧ p.splitTime s.timeColumn = .ok split ∧
      split.residual = some r ∧ r.text = text := by
  obtain ⟨quantum, split, spans, hplanned⟩ := exists_planned h
  rw [hplanned.pieces] at hpiece
  obtain ⟨span, -, rfl⟩ := List.mem_map.mp hpiece
  obtain ⟨r, hr, hrtext⟩ := Option.map_eq_some_iff.mp htext
  rcases condition_spec hplanned.condition with ⟨-, rfl⟩ | ⟨p, hp, hsplit⟩
  · cases hr
  · exact ⟨p, split, r, hp, hsplit, hr, hrtext⟩

/-- The residual of a planned SELECT is read back exactly if the decimals of the SELECT are
finite. -/
theorem residual_readable_iff {text residual : String}
    (hread : Statement.read text = .ok (.select select)) (hplan : s.plan settings select = .ok plan)
    (hpiece : piece ∈ plan.pieces) (hresidual : piece.residual = some residual) :
    (∃ p, Predicate.read residual = .ok p) ↔ select.IsFinite := by
  obtain ⟨p, split, r, hp, hsplit, hr, rfl⟩ := exists_split_of_residual hplan hpiece hresidual
  have hreadable : r.IsReadable :=
    Predicate.all_residual_of_splitTime hsplit ((Statement.read_select hread).2 p hp) r hr
  rw [Predicate.exists_read_text_iff hreadable, Predicate.isFinite_residual_iff hsplit hr,
    Select.IsFinite, hp]
  simp

end Schema

namespace Loads

def light (bound : Double) : Select where
  table := "loads"
  projection := .columns ["time", "load"]
  predicate := some (.and
    (.and (.compare ⟨"time", .greaterOrEqual, .integer 0⟩)
      (.compare ⟨"time", .less, .integer 1000⟩))
    (.compare ⟨"load", .less, .decimal bound⟩))

def lightClause : String :=
  "SELECT time, load FROM loads WHERE time >= 0 AND time < 1000 AND load < "

def lightText (digits : List Char) : String :=
  lightClause ++ String.ofList digits

theorem toList_lightText (digits : List Char) :
    (lightText digits).toList = lightClause.toList ++ digits := by
  rw [lightText, String.toList_append, String.toList_ofList]

def lightPlan (residual : String) : Plan where
  table := "loads"
  columns := [⟨"time", .timestamp, false⟩, ⟨"load", .sint64, true⟩]
  timeIndex := some 0
  pieces := [⟨["time", "load"], "time", some ⟨0, 1000⟩, some residual⟩]

theorem read_light : Statement.read (lightText "2.5".toList) =
    .ok (.select (light ⟨0x4004000000000000⟩)) := by
  decide +kernel

theorem plan_light : schema.plan .standard (light ⟨0x4004000000000000⟩) =
    .ok (lightPlan "load < 2.5") := by
  decide +kernel

theorem light_residual_readable :
    (∃ p, Predicate.read "load < 2.5" = .ok p) ↔ (light ⟨0x4004000000000000⟩).IsFinite :=
  Schema.residual_readable_iff read_light plan_light List.mem_cons_self rfl

def overflowing : List Char :=
  '1' :: List.replicate 309 '0' ++ ['.', '0']

/-- A SELECT that is read and planned can have a residual that is not read. -/
theorem overflowing_residual_unreadable :
    schema.check = .ok () ∧
      Statement.read (lightText overflowing) = .ok (.select (light ⟨0x7FF0000000000000⟩)) ∧
      schema.plan .standard (light ⟨0x7FF0000000000000⟩) = .ok (lightPlan "load < inf") ∧
      Predicate.read "load < inf" = .error (.unexpectedToken .literal (.column "inf")) := by
  have hread :
      Statement.read (lightText overflowing) = .ok (.select (light ⟨0x7FF0000000000000⟩)) := by
    rw [Statement.read, Lexer.read, toList_lightText]
    decide +kernel
  exact ⟨by decide +kernel, hread, by decide +kernel, by decide +kernel⟩

end Loads

end Timeslice
