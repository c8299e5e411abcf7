import Timeslice.Cluster.Service
import Timeslice.Proofs.Query.Answering
import Timeslice.Proofs.Session.Serving

/-!
# What a cluster serves

A cluster keeps its tables sound and its configuration as it is. Commands that only read keep the tables
as well, and a request that no failure rule fits is answered as the tables have it, after no longer
than the greatest latency.
-/

namespace Timeslice

def Command.reads : Command → Bool
  | .fetch _ _ | .listKeys _ | .query _ _ | .describeTable _ => true
  | .createTable _ | .store _ _ | .delete _ _ => false

def Payload.reads : Payload → Bool
  | .fetch _ | .listKeys | .query _ | .describeTable => true
  | .createTable _ | .store _ | .delete _ => false

theorem reads_of_isOf {c : Command} {r : Request} (hc : c.reads = true) (h : r.IsOf c) :
    r.payload.reads = true := by
  rcases h with rfl | ⟨piece, rfl⟩
  · cases c <;> first | rfl | cases hc
  · rfl

theorem Tables.eq_of_reads {ts ts' : Tables} {origin : Int64} {r : Request} {response : Response}
    (h : ts.apply origin r = .ok (response, ts')) (hr : r.payload.reads = true) : ts' = ts := by
  unfold Tables.apply at h
  split at h
  · next hpayload => simp [hpayload, Payload.reads] at hr
  · split at h
    · cases h
    · split at h
      · next hpayload => simp [hpayload, Payload.reads] at hr
      · next hpayload => simp [hpayload, Payload.reads] at hr
      · obtain ⟨result, -, heq⟩ := Except.exists_of_map h
        exact (Prod.mk.inj heq).2.symm
      · cases h
        rfl
      · obtain ⟨result, -, heq⟩ := Except.exists_of_map h
        exact (Prod.mk.inj heq).2.symm
      · cases h
        rfl
      · next hpayload => simp [hpayload, Payload.reads] at hr

namespace Cluster

def configuration (c : Cluster) :
    Bool × Bool × Int64 × List (Pattern × Nat) × List (Pattern × Rejection) :=
  (c.requiresSecurity, c.secured, c.origin, c.latencies, c.failures)

structure IsSound (init c : Cluster) : Prop where
  configured : c.configuration = init.configuration
  tables : c.tables.IsSound

structure Steady (c c' : Cluster) : Prop where
  configured : c'.configuration = c.configuration
  tables : c'.tables = c.tables

def slowest (c : Cluster) : Nat :=
  (c.latencies.map (·.2)).max?.getD 0

variable {c c' init : Cluster}

theorem IsSound.apply (h : IsSound init c) (r : Request) : IsSound init (c.apply r).1 := by
  unfold Cluster.apply
  split
  · next response tables happly => exact ⟨h.configured, h.tables.apply happly⟩
  · exact h

theorem IsSound.answer (h : IsSound init c) (held : Held) :
    IsSound init (transport.answer c held).1 := by
  have hleave : IsSound init c.leave := ⟨h.configured, h.tables⟩
  simp only [transport, conclude]
  split
  · exact hleave
  · exact hleave.apply held.request

theorem IsSound.arrive (h : IsSound init c) (r : Request) :
    IsSound init (transport.arrive c r).1 :=
  ⟨h.configured, h.tables⟩

/-- No command makes a table of the cluster unsound, and requests in flight are those of their
commands. -/
theorem keeps_isSound (init : Cluster) :
    transport.Keeps (IsSound init) (fun c held => held.request.IsOf c) fun _ => True where
  arrive c s r _ hr hs := by
    refine ⟨hs.arrive r, ?_⟩
    simp only [transport, judge]
    split_ifs <;> exact hr
  answer c s held _ _ hs := hs.answer held
  abandon s held hs := ⟨hs.configured, hs.tables⟩

theorem Steady.conclude (h : Steady c c') {held : Held} (hr : held.request.payload.reads = true) :
    Steady c (c'.conclude held).1 := by
  unfold Cluster.conclude
  split
  · exact h
  · unfold Cluster.apply
    split
    · next response tables happly =>
      exact ⟨h.configured, (Tables.eq_of_reads happly hr).trans h.tables⟩
    · exact h

theorem keeps_steady (c : Cluster) :
    transport.Keeps (Steady c) (fun cmd held => held.request.IsOf cmd) fun cmd => cmd.reads = true where
  arrive cmd s r _ hr hs := by
    refine ⟨⟨hs.configured, hs.tables⟩, ?_⟩
    simp only [transport, judge]
    split_ifs <;> exact hr
  answer cmd s held hc hheld hs :=
    Steady.conclude (show Steady c s.leave from ⟨hs.configured, hs.tables⟩) (reads_of_isOf hc hheld)
  abandon s held hs := ⟨hs.configured, hs.tables⟩

theorem lookup_le_slowest (c : Cluster) (r : Request) :
    (Pattern.lookup c.latencies r).getD 0 ≤ c.slowest := by
  rcases h : Pattern.lookup c.latencies r with _ | latency
  · exact Nat.zero_le _
  · obtain ⟨rule, hrule, rfl⟩ := Option.map_eq_some_iff.mp h
    exact List.le_max?_getD_of_mem (List.mem_map_of_mem (List.mem_of_find?_eq_some hrule))

def Accepts (c : Cluster) : Prop :=
  (c.requiresSecurity && !c.secured) = false

def Spares (c : Cluster) (command : Command) : Prop :=
  ∀ rule ∈ c.failures, ∀ r : Request, r.IsOf command → rule.1.fits r = false

theorem fields_of_configuration (h : c'.configuration = c.configuration) :
    c'.requiresSecurity = c.requiresSecurity ∧ c'.secured = c.secured ∧ c'.origin = c.origin ∧
      c'.latencies = c.latencies ∧ c'.failures = c.failures := by
  simpa only [configuration, Prod.mk.injEq] using h

theorem Steady.judge_eq (h : Steady c c') {command : Command} {r : Request}
    (haccepts : c.Accepts) (hspares : c.Spares command) (hr : r.IsOf command) :
    c'.judge r = ⟨⟨r, none⟩, (Pattern.lookup c.latencies r).getD 0⟩ := by
  obtain ⟨hrequires, hsecured, -, hlatencies, hfailures⟩ := fields_of_configuration h.configured
  have hlookup : Pattern.lookup c'.failures r = none := by
    rw [hfailures, Pattern.lookup, List.find?_eq_none.mpr fun rule hrule => by
      simp [hspares rule hrule r hr]]
    rfl
  have haccepts' : (c'.requiresSecurity && !c'.secured) = false := by
    rw [hrequires, hsecured]
    exact haccepts
  rw [judge, haccepts', if_neg nofun, hlookup, hlatencies]

theorem Steady.answer_eq (h : Steady c c') {r : Request} {response : Response} {tables : Tables}
    (happly : c.tables.apply c.origin r = .ok (response, tables)) :
    (transport.answer c' ⟨r, none⟩).2 = .reply (.ok response) := by
  obtain ⟨-, -, horigin, -⟩ := fields_of_configuration h.configured
  simp only [transport, Cluster.conclude, Cluster.apply, leave, h.tables, horigin, happly]

def inquiry (c : Cluster) (settings : Settings) (text : String) (select : Select) (shelf : Shelf)
    (plan : Plan) : Inquiry Held where
  settings := settings
  text := text
  select := select
  schema := shelf.schema
  plan := plan
  Taken r held := held = ⟨r, none⟩
  Fine piece part := shelf.scan c.origin piece = .ok part
  Fails := False
  slowest := c.slowest

/-- A cluster that changes no table serves a SELECT that is answerable over one of them. -/
theorem isServed {settings : Settings} {text : String} {select : Select} {shelf : Shelf}
    {plan : Plan} (haccepts : c.Accepts) (hspares : c.Spares (.query text (.select select)))
    (hsettings : settings.check = .ok ()) (horigin : settings.origin = c.origin)
    (hshelf : c.tables.find? select.table = some shelf)
    (h : Answerable shelf settings select plan) :
    (c.inquiry settings text select shelf plan).IsServed transport (Steady c)
      (fun cmd held => held.request.IsOf cmd) fun cmd => cmd.reads = true where
  keeps := keeps_steady c
  permitted := rfl
  concurrency := Settings.one_le_concurrency hsettings
  planned := .inl h.planned
  takes s r hs hasks := by
    have hr : r.IsOf (.query text (.select select)) := by
      rcases hasks with rfl | ⟨piece, -, rfl⟩
      · exact .inl rfl
      · exact .inr ⟨piece, rfl⟩
    simp only [transport, hs.judge_eq haccepts hspares hr]
    exact ⟨rfl, c.lookup_le_slowest r⟩
  opening s taken hs htaken := by
    subst htaken
    have happly : c.tables.apply c.origin (Command.query text (.select select)).opening =
        .ok (.table shelf.schema, c.tables) := by
      simp only [Command.opening, Tables.apply, Command.table, Statement.table, hshelf]
    exact .inl ⟨_, rfl, hs.answer_eq happly⟩
  pieces s taken piece hpiece hs htaken := by
    subst htaken
    obtain ⟨part, hscan, -⟩ := h.exists_parts
    have hpart := hscan piece hpiece
    rw [horigin] at hpart
    have happly : c.tables.apply c.origin ⟨select.table, .query piece⟩ =
        .ok (.rows (part piece), c.tables) := by
      simp only [Tables.apply, hshelf, hpart, Except.map]
    exact .inl ⟨_, ⟨part piece, hpart, rfl⟩, hs.answer_eq happly⟩
  widths piece hpiece part hpart row hrow := by
    obtain ⟨parts, hscan, hwidth, -⟩ := h.exists_parts
    have hparts := hscan piece hpiece
    rw [horigin, show shelf.scan c.origin piece = .ok part from hpart] at hparts
    cases hparts
    exact hwidth piece row hrow

theorem result_eq {settings : Settings} {text : String} {select : Select} {shelf : Shelf}
    {plan : Plan} (horigin : settings.origin = c.origin)
    (h : Answerable shelf settings select plan) {result : ResultSet}
    (hresult : (c.inquiry settings text select shelf plan).IsResult result) :
    result = .ofRows plan.columns
      ((shelf.answer select plan).map fun row => shelf.schema.view row select.projection) := by
  obtain ⟨-, parts, hparts, rfl⟩ := hresult
  refine h.merge_eq ?_
  rw [horigin]
  exact hparts

end Cluster

end Timeslice
