import Timeslice.Proofs.Cluster.Serving
import Timeslice.Proofs.Session.Calls
import Timeslice.Proofs.Session.Deadline

/-!
# A SELECT resolves with the rows that it asks for

The whole way of a query: its text is read, planned against the schema of its table and sent to the
cluster in pieces, whose residuals are read there from text again. While no other command changes a
table, the answers come to the stored rows of which the WHERE clause is true.
-/

namespace Timeslice

open Cluster (Held)

theorem Cluster.kept_calls (settings : Settings) {init : Cluster} (htables : init.tables.IsSound)
    (cs : List Session.Call) :
    ((Session.start settings init).calls transport cs).Kept settings (IsSound init)
      (fun cmd held => held.request.IsOf cmd) fun _ => True :=
  (Session.kept_start ⟨rfl, htables⟩).calls (keeps_isSound init) (fun _ r h => h.arrive r)
    (fun _ held h => ⟨h.answer held, _, rfl⟩) cs

def Session.OnlyReads {σ τ : Type} (s : Session σ τ) : Prop :=
  ∀ sub ∈ s.world.submissions, sub.standing = .pending → sub.command.reads = true

theorem Session.Kept.steady {settings : Settings} {init : Cluster} {s : Session Cluster Held}
    {A : Command → Prop}
    (h : s.Kept settings (Cluster.IsSound init) (fun cmd held => held.request.IsOf cmd) A)
    (hreads : s.OnlyReads) :
    s.Kept settings (Cluster.Steady s.world.state) (fun cmd held => held.request.IsOf cmd)
      fun cmd => cmd.reads = true :=
  ⟨h.settings, ⟨rfl, rfl⟩, fun sub hsub _ hpending => hreads sub hsub hpending, h.flights, h.timers⟩

/-- The answer to a SELECT over a shelf: the rows of which the WHERE clause is true, each one once,
in order and as the projection shows them. It has columns exactly if it has rows. -/
structure Shelf.IsAnswer (shelf : Shelf) (origin : Int64) (select : Select) (result : ResultSet) :
    Prop where
  rows : ∃ rows : List Row, rows.Perm (shelf.wanted select) ∧
    rows.Pairwise (shelf.schema.Precedes origin select) ∧
      result.rows = rows.map fun row => shelf.schema.view row select.projection
  columns : result.columns = [] ↔ result.rows = []

/-- The query, submitted now, resolves with this result: so says a wait that is long enough, and the
report once enough time has passed. -/
def Session.ResolvesWith {σ τ : Type} (T : Transport σ τ) (s : Session σ τ) (c : Command)
    (typed : Bool) (result : ResultSet) : Prop :=
  let (submitted, ticket) := s.submit c typed
  ∃ enough,
    (∀ limit, s.now + enough < limit →
      (submitted.waitUntil T limit ticket).2 = some (.ok (.rows result))) ∧
    ∀ millis, enough ≤ millis →
      (submitted.advance T millis).world.report? ticket = some (.ok (.rows result))

section Resolved

variable {settings : Settings} {init : Cluster} {s : Session Cluster Held} {text : String}
  {select : Select} {shelf : Shelf} {plan : Plan}

theorem Answerable.isAnswer (h : Answerable shelf settings select plan) :
    shelf.IsAnswer settings.origin select (.ofRows plan.columns
      ((shelf.answer select plan).map fun row => shelf.schema.view row select.projection)) := by
  obtain ⟨hperm, hsorted⟩ := h.answer_spec
  exact ⟨⟨_, hperm, hsorted, ResultSet.rows_ofRows _ _⟩,
    ResultSet.columns_ofRows_eq_nil_iff h.columns_ne_nil⟩

/-- A SELECT that can be planned, and whose WHERE clause has a value on each stored row, resolves with
its answer, unless some other command changes a table meanwhile. -/
theorem select_resolves (htables : init.tables = []) {cs : List Session.Call}
    (hs : s = (Session.start settings init).calls Cluster.transport cs)
    (hreads : s.OnlyReads) (haccepts : init.Accepts)
    (hspares : init.Spares (.query text (.select select)))
    (hsettings : settings.check = .ok ()) (horigin : settings.origin = init.origin)
    (hread : Statement.read text = .ok (.select select)) (hfinite : select.IsFinite)
    (hshelf : s.world.state.tables.find? select.table = some shelf)
    (hplan : shelf.schema.plan settings select = .ok plan)
    (hdecides : ∀ row ∈ shelf.contents, select.Decides shelf.schema.plainColumns row)
    (typed : Bool) :
    ∃ result, shelf.IsAnswer settings.origin select result ∧
      s.ResolvesWith Cluster.transport (.query text (.select select)) typed result := by
  have hsound : init.tables.IsSound := by
    rw [htables]
    rintro shelf ⟨⟩
  have hkept := Cluster.kept_calls settings hsound cs
  rw [← hs] at hkept
  have hsteady := hkept.steady hreads
  obtain ⟨hrequires, hsecured, horigin', -, hfailures⟩ :=
    Cluster.fields_of_configuration hkept.state.configured
  have haccepts' : s.world.state.Accepts := by
    rwa [Cluster.Accepts, hrequires, hsecured]
  have hspares' : s.world.state.Spares (.query text (.select select)) := by
    rwa [Cluster.Spares, hfailures]
  rw [← horigin'] at horigin
  obtain ⟨hprojected, hreadable⟩ := Statement.read_select hread
  have hanswerable : Answerable shelf settings select plan :=
    ⟨hkept.state.tables.find hshelf, hplan, hprojected, hreadable, hfinite, hdecides⟩
  have hserved := Cluster.isServed haccepts' hspares' hsettings horigin hshelf hanswerable
  have hattends := Session.attends_submit (x := s.world.state.inquiry settings text select shelf plan)
    hsteady typed
  have hsubmitted := hsteady.submit (c := .query text (.select select)) rfl typed
  refine ⟨_, hanswerable.isAnswer, (plan.pieces.length + 1) * s.world.state.slowest, ?_, ?_⟩
  · intro limit hlimit
    obtain ⟨result, hresult, hreport⟩ :=
      (hattends.waitUntil_eq hserved hsubmitted hlimit).resolve_right id
    rw [← Cluster.result_eq horigin hanswerable hresult]
    exact hreport
  · intro millis hmillis
    obtain ⟨result, hresult, hreport⟩ :=
      (hattends.report_advance hserved hsubmitted (Nat.add_le_add_left hmillis s.now)).resolve_right
        id
    rw [← Cluster.result_eq horigin hanswerable hresult]
    exact hreport

end Resolved

/-! The table of loads is filled by a session. -/

namespace Loads

def row (host : UInt8) (time : Int64) (load : Cell) : Row :=
  [.varchar [host], .timestamp time, load]

def rows : List Row :=
  [row 98 100 .null, row 97 1500 (.sint64 3), row 97 200 .null, row 98 7000 .null]

def cluster : Cluster :=
  .start false false 0 []

def session : Session Cluster Held :=
  (Session.start .standard cluster).calls Cluster.transport
    [.direct ⟨"loads", .createTable schema⟩, .direct ⟨"loads", .store rows⟩]

def shelf : Shelf where
  schema := schema
  rows := [
    ([.bytes [97], .number 200], row 97 200 .null),
    ([.bytes [97], .number 1500], row 97 1500 (.sint64 3)),
    ([.bytes [98], .number 100], row 98 100 .null),
    ([.bytes [98], .number 7000], row 98 7000 .null)]

theorem read_text : Statement.read text = .ok (.select select) := by decide +kernel

theorem find_shelf : session.world.state.tables.find? "loads" = some shelf := by decide +kernel

theorem isFinite_select : select.IsFinite := by
  intro p hp
  obtain rfl := Option.some.inj hp
  exact ⟨trivial, trivial⟩

theorem onlyReads_session : session.OnlyReads := by
  unfold Session.OnlyReads
  decide +kernel

theorem decides_select : ∀ row ∈ shelf.contents, select.Decides schema.plainColumns row := by
  decide +kernel

end Loads

/-- The SELECT of loads resolves with three of the four rows. -/
theorem select_loads_resolves :
    Loads.shelf.wanted Loads.select =
        [Loads.row 97 200 .null, Loads.row 97 1500 (.sint64 3), Loads.row 98 100 .null] ∧
      ∃ result, Loads.shelf.IsAnswer 0 Loads.select result ∧
        Loads.session.ResolvesWith Cluster.transport (.query Loads.text (.select Loads.select)) true
          result :=
  ⟨by decide +kernel, select_resolves (s := Loads.session) rfl rfl Loads.onlyReads_session rfl
    (by rintro rule ⟨⟩) rfl rfl Loads.read_text Loads.isFinite_select Loads.find_shelf
    (Loads.plan_select 8) Loads.decides_select true⟩

end Timeslice
