import Timeslice.Proofs.Cluster.Refinement
import Timeslice.Proofs.Session.Ending

/-!
# What a settled command leaves in a cluster

A command changes the tables at most once: its first request is applied as a whole, on the turn that
settles the command. A command that is settled in any other way never changes them, and once it is
settled its task sends nothing and what it has sent is dropped.
-/

namespace Timeslice

variable {c : Command} {settings : Settings}

theorem Tables.after_of_reads {r : Request} (hr : r.payload.reads = true) (origin : Int64)
    (ts : Tables) : Tables.after origin ts r = ts := by
  unfold after
  split
  · next happly => exact eq_of_reads happly hr
  · rfl

theorem Command.gathers_of_not_reads (h : ¬ c.reads = true) : c.gathers = false := by
  cases c <;> first | rfl | exact absurd rfl h

theorem Command.exists_settled (settings : Settings) {stage : Stage} (hc : c.gathers = false)
    (hstage : ∀ f, stage ≠ .gathering f) (slot : Nat) (reply : Except Rejection Response) :
    ∃ outcome, c.receive settings stage slot reply = .settled outcome := by
  cases hreceive : c.receive settings stage slot reply with
  | settled outcome => exact ⟨outcome, rfl⟩
  | goesOn stage' =>
    rcases Command.receive_goesOn hreceive with ⟨hgathers, -⟩ | ⟨f, -, hf, -⟩
    · rw [hc] at hgathers
      cases hgathers
    · exact absurd hf (hstage f)

namespace Cluster

open World (Act)

variable {s : Cluster} {t : Turn Cluster Held} {task : Task Held}

theorem keeps_requests :
    transport.Keeps (fun _ => True) (fun c held => held.request.IsOf c) fun _ => True where
  arrive c s r _ hr _ := by
    refine ⟨trivial, ?_⟩
    simp only [transport, judge]
    split_ifs <;> exact hr
  answer _ _ _ _ _ _ := trivial
  abandon _ _ _ := trivial

/-- The requests in flight are those of the command, and their slots fit to the stage. -/
structure Fits (c : Command) (task : Task Held) : Prop where
  flights : ∀ f ∈ task.flights, f.taken.request.IsOf c
  tidy : task.Tidy c

theorem lasts_fits : World.Lasts transport Fits where
  start _ := ⟨by rintro f ⟨⟩, rfl⟩
  turn settings c state task h :=
    ⟨(Turn.kept_run (P := fun _ => True) keeps_requests trivial trivial h.flights).flights,
      Task.tidy_run transport settings state h.tidy⟩
  wake _ _ _ h := ⟨h.flights, h.tidy⟩

/-- A turn of a command that sends one request: the request is still to be answered, or it has met
the tables. -/
structure Meeting (c : Command) (s : Cluster) (t : Turn Cluster Held) : Prop where
  flights : ∀ f ∈ t.flights, f.taken.request.IsOf c
  stage : ∀ f, t.stage ≠ .gathering f
  origin : t.state.origin = s.origin
  waiting : t.outcome = none → t.state.tables = s.tables
  tables : t.state.tables = s.tables ∨ t.state.tables = s.tables.after s.origin c.opening

theorem conclude_spec (s : Cluster) {held : Held} (hr : held.request.IsOf c) :
    (s.conclude held).1.origin = s.origin ∧
      ((s.conclude held).1.tables = s.tables ∨
        (s.conclude held).1.tables = s.tables.after s.origin c.opening) := by
  unfold conclude
  split
  · exact ⟨rfl, .inl rfl⟩
  · refine ⟨origin_apply s held.request, ?_⟩
    rw [tables_apply]
    rcases hr with heq | ⟨piece, heq⟩
    · rw [heq]
      exact .inr rfl
    · rw [heq]
      exact .inl (Tables.after_of_reads rfl _ _)

variable (settings) in
theorem Meeting.hear (h : Meeting c s t) (hc : c.gathers = false) (hnone : t.outcome = none)
    (slot : Nat) {held : Held} (hr : held.request.IsOf c) :
    Meeting c s (t.hear transport settings c slot held) := by
  obtain ⟨horigin, htables⟩ := conclude_spec t.state.leave hr
  unfold Turn.hear
  simp only [transport]
  unfold Turn.advance
  obtain ⟨outcome, houtcome⟩ := Command.exists_settled settings hc h.stage slot
    (t.state.leave.conclude held).2
  rw [houtcome]
  refine ⟨h.flights, h.stage, horigin.trans h.origin, by rintro ⟨⟩, ?_⟩
  have hleave : t.state.leave.tables = s.tables := h.waiting hnone
  have horigin' : t.state.leave.origin = s.origin := h.origin
  rw [hleave, horigin'] at htables
  exact htables

theorem taken_judge (s : Cluster) (r : Request) : (s.judge r).taken.request = r := by
  unfold judge
  split_ifs <;> rfl

variable (settings) in
theorem Meeting.send (h : Meeting c s t) (hc : c.gathers = false) (hnone : t.outcome = none)
    (slot : Nat) {r : Request} (hr : r.IsOf c) :
    Meeting c s (t.send transport settings c slot r) := by
  have harrived : Meeting c s { t with state := t.state.enter r } :=
    ⟨h.flights, h.stage, h.origin, h.waiting, h.tables⟩
  have htaken : (t.state.judge r).taken.request.IsOf c := by rwa [taken_judge]
  have harrive : transport.arrive t.state r = (t.state.enter r, t.state.judge r) := rfl
  by_cases hdelay : (t.state.judge r).delay = 0
  · rw [Turn.send_atOnce c slot harrive hdelay]
    exact harrived.hear settings hc hnone slot htaken
  · rw [Turn.send_delayed c slot harrive hdelay]
    refine ⟨fun f hf => ?_, h.stage, h.origin, h.waiting, h.tables⟩
    rcases List.mem_append.mp hf with hf | hf
    · exact h.flights f hf
    · rw [List.mem_singleton.mp hf]
      exact htaken

theorem abandonAll_spec (s : Cluster) (flights : List (Flight Held)) :
    (Turn.abandonAll transport s flights).tables = s.tables ∧
      (Turn.abandonAll transport s flights).served = s.served ∧
        (Turn.abandonAll transport s flights).origin = s.origin := by
  unfold Turn.abandonAll
  induction flights generalizing s with
  | nil => exact ⟨rfl, rfl, rfl⟩
  | cons f rest ih => exact ih s.leave

variable (settings s) in
/-- The tables after a turn: as they were if the command goes on, and else as they were or with the
first request applied to them. -/
theorem tables_run (h : Fits c task) :
    ((task.run transport settings c s).outcome = none →
        (task.run transport settings c s).state.tables = s.tables) ∧
      ((task.run transport settings c s).state.tables = s.tables ∨
        (task.run transport settings c s).state.tables = s.tables.after s.origin c.opening) := by
  by_cases hreads : c.reads = true
  · have hsteady : (task.run transport settings c s).state.tables = s.tables :=
      (Turn.kept_run (keeps_steady s) hreads ⟨rfl, rfl⟩ h.flights).state.tables
    exact ⟨fun _ => hsteady, .inl hsteady⟩
  · have hc := Command.gathers_of_not_reads hreads
    have hmeeting : Meeting c s (task.run transport settings c s) := by
      refine Task.run_induction ⟨h.flights, ?_, rfl, fun _ => rfl, .inl rfl⟩ ?_ ?_ ?_ ?_
      · intro f hf
        have htidy := h.tidy
        unfold Task.Tidy at htidy
        rw [show task.stage = .gathering f from hf, Stage.Tidy, hc] at htidy
        cases htidy.1
      · intro t slot f ht hnone hf
        have hland : Meeting c s (t.land slot) :=
          ⟨fun g hg => ht.flights g (List.mem_filter.mp hg).1, ht.stage, ht.origin, ht.waiting,
            ht.tables⟩
        exact hland.hear settings hc hnone slot (ht.flights f (List.mem_of_find?_eq_some hf))
      · intro t ht hnone _
        have hopened : Meeting c s { t with stage := .opened } :=
          ⟨ht.flights, by rintro f ⟨⟩, ht.origin, ht.waiting, ht.tables⟩
        exact hopened.send settings hc hnone 0 (.inl rfl)
      · exact fun t f _ _ _ ht _ hstage _ => absurd hstage (ht.stage f)
      · intro t ht _
        obtain ⟨htables, -, horigin⟩ := abandonAll_spec t.state t.flights
        exact ⟨by rintro f ⟨⟩, ht.stage, horigin.trans ht.origin,
          fun hnone => htables.trans (ht.waiting hnone),
          ht.tables.imp htables.trans htables.trans⟩
    exact ⟨hmeeting.waiting, hmeeting.tables⟩

section Worlds

variable {w : World Cluster Held} {act : Act Cluster} {ticket : Nat} {sub : Submission Held}

theorem tables_perform (hfits : w.Tasked Fits) (hact : act.IsSerial)
    (hsub : w.submissions[ticket]? = some sub) (howner : act.owner = some ticket) :
    (w.perform transport act).state.tables = w.state.tables ∨
      (w.perform transport act).state.tables =
          w.state.tables.after w.state.origin sub.command.opening ∧
        (w.perform transport act).standing ticket ≠ .pending ∧
          (w.perform transport act).standing ticket ≠ .cancelled := by
  cases World.moves_perform transport act hsub with
  | rests _ state => exact .inl (congrArg Cluster.tables (state howner))
  | runs task had _ pending state submission =>
    obtain ⟨hwaiting, htables⟩ := tables_run w.settings w.state (hfits ticket sub task hsub had)
    rw [state, World.standing_eq submission]
    cases houtcome : (task.run transport w.settings sub.command w.state).outcome with
    | none => exact .inl (hwaiting houtcome)
    | some outcome =>
      refine htables.imp_right fun happlied => ⟨happlied, ?_⟩
      rw [Submission.after_of_some houtcome, pending hact]
      exact sub.command.conclude_settled sub.typed
  | drops task _ _ state =>
    rw [state]
    exact .inl (abandonAll_spec w.state task.flights).1
  | wakes _ _ _ foreign =>
    rw [foreign.1] at howner
    cases howner
  | cancels _ owner =>
    rw [owner] at howner
    cases howner

end Worlds

end Cluster

namespace World

open Cluster (Held transport)

section Ending

variable {settings : Settings} {cluster : Cluster} {past rest : List (Act Cluster)} {ticket : Nat}
  {sub : Submission Held}

/-- All that a submission does comes to an end with the acts `past`, after which it stands as `sub`; the
acts `rest` come later. -/
structure Ends (settings : Settings) (cluster : Cluster) (past rest : List (Act Cluster))
    (ticket : Nat) (sub : Submission Held) : Prop where
  quiet : ∀ w act, Meets transport ((start settings cluster).run transport past) rest w act →
    act.owner = some ticket →
      (w.perform transport act).state.served = w.state.served ∧
        (w.perform transport act).state.tables = w.state.tables
  /-- When all tasks that can run have had their turns, each request that was sent on a turn of its
  task has been answered or dropped. -/
  landed : ∀ now n, (start settings (cluster, [])).Sends transport (past ++ rest) ticket n →
    (((start settings (cluster, [])).record transport (past ++ rest)).runReady transport.logged
      now).state.2.Concluded n
  /-- Its task has changed the tables only by the whole of the first request, on the turn that has
  settled the submission. -/
  applied : ∀ w act, Meets transport (start settings cluster) (past ++ rest) w act →
    act.owner = some ticket →
      (w.perform transport act).state.tables = w.state.tables ∨
        (w.perform transport act).state.tables =
            w.state.tables.after w.state.origin sub.command.opening ∧
          (w.perform transport act).standing ticket = sub.standing
  cancelled : sub.standing = .cancelled →
    ∀ w act, Meets transport (start settings cluster) (past ++ rest) w act →
      act.owner = some ticket → (w.perform transport act).state.tables = w.state.tables
  /-- If its task had no turn before, the cluster never learns of the command. -/
  unsent : (∀ act ∈ past, act.owner ≠ some ticket) →
    ∀ w act, Meets transport (start settings cluster) (past ++ rest) w act →
      act.owner = some ticket → (w.perform transport act).state = w.state
  /-- Besides tasks and what is sent past them nothing changes the cluster, so that no call for a
  cancellation takes back what has been applied. -/
  spared : ∀ w act, Meets transport (start settings cluster) (past ++ rest) w act →
    act.owner = none → (∀ f, act ≠ .drift f) → (w.perform transport act).state = w.state

theorem quiet_of_settled {init w : World Cluster Held} {act : Act Cluster}
    (hsettled : init.standing ticket ≠ .pending) (hserial : ∀ act ∈ rest, act.IsSerial)
    (hmeets : Meets transport init rest w act) (howner : act.owner = some ticket) :
    (w.perform transport act).state.served = w.state.served ∧
      (w.perform transport act).state.tables = w.state.tables := by
  obtain ⟨flights, hstate⟩ := state_perform_of_settled (T := transport)
    (hmeets.standing_eq hsettled ▸ hsettled) (hserial act hmeets.mem) howner
  obtain ⟨htables, hserved, -⟩ := Cluster.abandonAll_spec w.state flights
  rw [hstate]
  exact ⟨hserved, htables⟩

/-- What changed the tables before a submission was settled has settled it, not as cancelled. -/
theorem applied_of_settled (hserial : ∀ act ∈ past, act.IsSerial)
    (hsub : ((start settings cluster).run transport past).submissions[ticket]? = some sub)
    {w : World Cluster Held} {act : Act Cluster}
    (hmeets : Meets transport (start settings cluster) past w act)
    (howner : act.owner = some ticket) :
    (w.perform transport act).state.tables = w.state.tables ∨
      (w.perform transport act).state.tables =
          w.state.tables.after w.state.origin sub.command.opening ∧
        (w.perform transport act).standing ticket = sub.standing ∧ sub.standing ≠ .cancelled := by
  have hact := hserial act hmeets.mem
  obtain ⟨before, later, rfl, rfl⟩ := hmeets
  set w := (start settings cluster : World Cluster Held).run transport before
  rw [run_append, run_cons] at hsub
  cases hfound : w.submissions[ticket]? with
  | none => exact .inl (congrArg Cluster.tables (state_perform_of_none hfound howner))
  | some found =>
    refine (Cluster.tables_perform (Cluster.lasts_fits.run settings cluster before) hact hfound
      howner).imp_right fun ⟨htables, hpending, hcancelled⟩ => ?_
    obtain ⟨next, hnext, hfollows⟩ := (moves_perform transport act hfound).exists_follows
    obtain ⟨last, hlast, hcommand, hstanding⟩ := exists_submission_run (T := transport) hnext later
    obtain rfl : last = sub := Option.some.inj (hlast.symm.trans hsub)
    rw [standing_eq hnext] at hpending hcancelled ⊢
    rw [hstanding hpending, hcommand, hfollows.command]
    exact ⟨htables, rfl, hcancelled⟩

/-- Nothing that a command does outlives its being settled, however that comes about. -/
theorem ends_when_settled (settings : Settings) (cluster : Cluster) (past rest : List (Act Cluster))
    (hserial : ∀ act ∈ past ++ rest, act.IsSerial) {ticket : Nat} {sub : Submission Held}
    (hsub : ((start settings cluster).run transport past).submissions[ticket]? = some sub)
    (hsettled : sub.standing ≠ .pending) : Ends settings cluster past rest ticket sub := by
  obtain ⟨hpast, hrest⟩ := List.forall_mem_append.mp hserial
  have hstanding : ((start settings cluster).run transport past).standing ticket ≠ .pending := by
    rwa [standing_eq hsub]
  refine ⟨fun w act => quiet_of_settled hstanding hrest, fun now n => ?_, fun w act hmeets howner => ?_,
    fun hcancelled w act hmeets howner => ?_, fun hunsent w act hmeets howner => ?_, ?_⟩
  · refine concluded_runReady transport settings (cluster, []) hserial ?_ now
    obtain ⟨last, hlast, -, hsame⟩ := exists_submission_run (T := transport) hsub rest
    rw [← standing_unlogged, unlogged_record]
    change ((start settings cluster).run transport (past ++ rest)).standing ticket ≠ .pending
    rw [run_append, standing_eq hlast, hsame hsettled]
    exact hsettled
  · rcases hmeets.append with hmeets | hmeets
    · refine (applied_of_settled hpast hsub hmeets howner).imp_right fun h => ⟨h.1, h.2.1⟩
    · exact .inl (quiet_of_settled hstanding hrest hmeets howner).2
  · rcases hmeets.append with hmeets | hmeets
    · exact (applied_of_settled hpast hsub hmeets howner).resolve_right fun h => h.2.2 hcancelled
    · exact (quiet_of_settled hstanding hrest hmeets howner).2
  · rcases hmeets.append with hmeets | hmeets
    · exact absurd howner (hunsent act hmeets.mem)
    · exact ((idle_start settings cluster ticket).run hunsent).state_perform hstanding hrest hmeets
        howner
  · exact fun w act _ => state_perform_of_owner_eq_none

end Ending

/-! A row is stored with a delay; the STORE is cancelled while it is in flight. -/

namespace Storing

def cluster : Cluster := .start false false 0 [(⟨some .store, none, none⟩, 5)]

def store : Command := .store "loads" [[.ofText "web", .timestamp 500, .sint64 7]]

def past : List (Act Cluster) :=
  [.submit (.createTable Loads.schema) true, .turn 0 0, .submit store true, .turn 0 1, .cancel 1]

def rest : List (Act Cluster) := [.expire ⟨5, 1, 0⟩, .turn 5 1]

def cancelled : Submission Held :=
  ⟨store, true, .cancelled, some ⟨.opened, [⟨0, ⟨store.opening, none⟩⟩], []⟩⟩

end Storing

theorem store_ends_when_cancelled :
    ((start .standard Storing.cluster).run transport Storing.past).submissions[1]? =
        some Storing.cancelled ∧
      ((start .standard Storing.cluster).run transport
        (Storing.past ++ Storing.rest)).state.tables.rowCount "loads" = some 0 ∧
      Ends .standard Storing.cluster Storing.past Storing.rest 1 Storing.cancelled :=
  ⟨rfl, rfl, ends_when_settled .standard Storing.cluster Storing.past Storing.rest
    (by simp [Storing.past, Storing.rest, Act.IsSerial]) rfl (by rintro ⟨⟩)⟩

end World

end Timeslice
