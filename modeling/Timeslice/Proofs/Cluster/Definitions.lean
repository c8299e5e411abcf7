import Timeslice.Proofs.Cluster.Settles
import Timeslice.Proofs.Data.Description
import Timeslice.Proofs.Session.Faithful

/-!
# Tables are defined once

In every run over a cluster at most one CREATE TABLE of a name resolves. From then on the table is there
with the schema of that command: whoever has it described is told that schema, and whoever creates it
again is refused. The description of a table says all there is to its columns.
-/

namespace Timeslice

open Cluster (Governed Held Opens Settles Use transport)

/-- The command asks for the description of a table and comes to this response if the table has the
schema. -/
inductive Command.Describes (schema : Schema) : Command → Response → Prop where
  | table : Describes schema (.describeTable schema.name) (.table schema)
  | query (text : String) :
    Describes schema (.query text (.describe schema.name)) (.rows schema.description)

/-- The command stands as it does before an answer or without one: it is not settled, or it has been
cancelled or torn down. -/
def Standing.IsUnanswered (c : Command) (s : Standing) : Prop :=
  s = .pending ∨ s = .cancelled ∨ s = .failed (c.failure .aborted)

def Failure.Injected (rules : List (Pattern × Rejection)) (c : Command) (f : Failure) : Prop :=
  ∃ p rejection, (p, rejection) ∈ rules ∧ f = c.failure (.rejected rejection)

/-- The command stands as the answer to a request lets it stand that has met a table with this
schema. Failure rules can withhold that answer. -/
structure Standing.Heeds (rules : List (Pattern × Rejection)) (schema : Schema) (c : Command)
    (s : Standing) : Prop where
  described : ∀ response, c.Describes schema response →
    s = .resolved response ∨ ∃ f, s = .failed f ∧ f.Injected rules c
  refused : ∀ schema', c = .createTable schema' → schema'.name = schema.name →
    ∃ f, s = .failed f ∧ (f.kind = .schema ∨ f.Injected rules c)

theorem Command.Describes.opening_eq {schema : Schema} {c : Command} {response : Response}
    (h : c.Describes schema response) : c.opening = ⟨schema.name, .describeTable⟩ := by
  cases h <;> rfl

theorem Command.Describes.gathers_eq {schema : Schema} {c : Command} {response : Response}
    (h : c.Describes schema response) : c.gathers = false := by
  cases h <;> rfl

theorem Command.Describes.ends {schema : Schema} {c : Command} {response : Response}
    (h : c.Describes schema response) (settings : Settings) :
    c.Ends settings (.reply (.ok (.table schema))) (.ok response) := by
  cases h with
  | table => exact .yields (.describeTable schema.name) (.shaped rfl)
  | query text => exact .described text schema.name schema

theorem Standing.heeds_of_gathers {c : Command} (h : c.gathers = true)
    (rules : List (Pattern × Rejection)) (schema : Schema) (s : Standing) :
    s.Heeds rules schema c := by
  refine ⟨fun response hdescribes => ?_, ?_⟩
  · rw [hdescribes.gathers_eq] at h
    cases h
  · rintro schema' rfl
    cases h

namespace Cluster

variable {accepts : Prop} {rules : List (Pattern × Rejection)} {settings : Settings} {c : Command}
  {s : Cluster} {ts : Tables} {outcome : Outcome} {schema : Schema}

theorem injected_of_bars {rejection : Rejection} (h : Bars accepts rules rejection)
    (haccepts : accepts) (c : Command) : (c.failure (.rejected rejection)).Injected rules c := by
  rcases h with ⟨hrefuses, -⟩ | ⟨p, hrule⟩
  · exact absurd haccepts hrefuses
  · exact ⟨p, rejection, hrule, rfl⟩

theorem Settles.heeds (h : Settles settings accepts rules c s ts outcome)
    (hs : s.Governed accepts rules) (htable : s.tables.Has schema) :
    (c.verdict outcome).Heeds rules schema c := by
  have haccepts : accepts := hs.tables htable.ne_nil
  constructor
  · intro response hdescribes
    have happly := htable.describe s.origin
    rw [← hdescribes.opening_eq] at happly
    cases h with
    | barred bars => exact .inr ⟨_, rfl, injected_of_bars bars haccepts c⟩
    | refused refused =>
      rw [happly] at refused
      cases refused
    | served served ends =>
      rw [happly] at served
      cases served
      rw [(hdescribes.ends settings).unique ends]
      exact .inl rfl
  · rintro schema' rfl hname
    obtain ⟨message, happly⟩ := htable.create hname s.origin schema'.name
    cases h with
    | barred bars => exact ⟨_, rfl, .inr (injected_of_bars bars haccepts _)⟩
    | refused refused =>
      obtain rfl := Except.error.inj (happly.symm.trans refused)
      exact ⟨_, rfl, .inl rfl⟩
    | served served =>
      rw [show s.tables.apply s.origin (Command.createTable schema').opening = _ from happly] at served
      cases served

theorem Settles.has (h : Settles settings accepts rules (.createTable schema) s ts outcome)
    {response : Response} (hverdict : (Command.createTable schema).verdict outcome = .resolved response) :
    ts.Has schema := by
  cases h with
  | barred | refused => cases hverdict
  | served served => exact Tables.has_of_create served

section Worlds

variable {w : World Cluster Held} {act : World.Act Cluster} {ticket : Nat} {sub : Submission Held}

inductive Advances (accepts : Prop) (rules : List (Pattern × Rejection)) (w : World Cluster Held)
    (act : World.Act Cluster) (ticket : Nat) (sub : Submission Held) : Standing → Prop where
  | stays : Advances accepts rules w act ticket sub sub.standing
  | cancelled : Advances accepts rules w act ticket sub .cancelled
  | aborted : Advances accepts rules w act ticket sub (.failed (sub.command.failure .aborted))
  | settles {outcome : Outcome} (pending : sub.standing = .pending)
    (owner : act.owner = some ticket)
    (settles : Settles w.settings accepts rules sub.command w.state
      (w.perform transport act).state.tables outcome) :
    Advances accepts rules w act ticket sub (sub.command.verdict outcome)

theorem Settles.shape (h : Settles settings accepts rules c s ts outcome) {response : Response}
    (houtcome : outcome = .ok response) : response.shape = c.kind.shape := by
  subst houtcome
  cases h with
  | served _ ends => exact ends.shape

theorem exists_advances (h : w.Upholds (Governed accepts rules) (Opens accepts rules))
    (act : World.Act Cluster) (hsub : w.submissions[ticket]? = some sub)
    (hc : sub.command.gathers = false) :
    ∃ sub', (w.perform transport act).submissions[ticket]? = some sub' ∧
      sub'.command = sub.command ∧ Advances accepts rules w act ticket sub sub'.standing := by
  cases World.moves_perform transport act hsub with
  | rests submission => exact ⟨sub, submission, rfl, .stays⟩
  | wakes _ _ _ _ _ submission => exact ⟨_, submission, rfl, .stays⟩
  | cancels _ _ _ _ submission => exact ⟨_, submission, rfl, .cancelled⟩
  | drops task _ _ _ submission =>
    refine ⟨_, submission, rfl, ?_⟩
    by_cases hpending : sub.standing = .pending
    · rw [Submission.withoutTask, hpending]
      exact .aborted
    · rw [Submission.withoutTask_of_settled hpending]
      exact .stays
  | runs task had owner _ state submission =>
    refine ⟨_, submission, Submission.command_after _ _, ?_⟩
    have hsettling := settling_run w.settings hc h.state (h.tasks ticket sub task hsub had)
    cases houtcome : (task.run transport w.settings sub.command w.state).outcome with
    | none =>
      rw [Submission.after_of_none houtcome]
      exact .stays
    | some outcome =>
      rw [Submission.after_of_some houtcome]
      by_cases hpending : sub.standing = .pending
      · have hsettles := hsettling.settles outcome houtcome
        rw [← state] at hsettles
        have hverdict : sub.standing.settle (sub.command.conclude sub.typed outcome) =
            sub.command.verdict outcome := by
          rw [hpending]
          exact Command.conclude_eq_verdict (fun response => hsettles.shape) sub.typed
        rw [hverdict]
        exact .settles hpending owner hsettles
      · rw [Standing.settle_of_ne_pending hpending]
        exact .stays

end Worlds

end Cluster

namespace World

variable {accepts : Prop} {rules : List (Pattern × Rejection)} {w : World Cluster Held}
  {act : Act Cluster} {acts : List (Act Cluster)} {ticket : Nat} {schema : Schema}

def Uses (accepts : Prop) (rules : List (Pattern × Rejection)) (acts : List (Act Cluster)) : Prop :=
  ∀ f, .drift f ∈ acts → Use accepts rules f

theorem Uses.append {past rest : List (Act Cluster)} (h : Uses accepts rules (past ++ rest)) :
    Uses accepts rules past ∧ Uses accepts rules rest :=
  ⟨fun f hf => h f (List.mem_append_left _ hf), fun f hf => h f (List.mem_append_right _ hf)⟩

theorem has_run (h : w.state.tables.Has schema) (huses : Uses accepts rules acts) :
    (w.run transport acts).state.tables.Has schema := by
  have hupholds : w.Upholds (fun c => c.tables.Has schema)
      fun _ task => ∀ f ∈ task.flights, True := ⟨h, fun _ _ _ _ _ _ _ => trivial⟩
  exact (hupholds.run (sustains_of_keeps Cluster.keeps_has) fun f hf s => (huses f hf).has).state

/-- The command of this ticket has no answer or heeds the table. -/
def Obeys (rules : List (Pattern × Rejection)) (schema : Schema) (ticket : Nat)
    (w : World Cluster Held) : Prop :=
  ∀ sub, w.submissions[ticket]? = some sub →
    sub.standing.IsUnanswered sub.command ∨ sub.standing.Heeds rules schema sub.command

theorem obeys_of_pending (h : w.standing ticket = .pending) : w.Obeys rules schema ticket := by
  intro sub hsub
  rw [standing_eq hsub] at h
  exact .inl (.inl h)

theorem Obeys.perform (h : w.Obeys rules schema ticket)
    (hw : w.Upholds (Governed accepts rules) (Opens accepts rules)) (htable : w.state.tables.Has schema)
    (act : Act Cluster) : (w.perform transport act).Obeys rules schema ticket := by
  intro sub' hsub'
  cases hsub : w.submissions[ticket]? with
  | none => exact .inl (.inl (fresh_perform hsub hsub').1)
  | some sub =>
    by_cases hc : sub.command.gathers = true
    · obtain ⟨next, hnext, hfollows⟩ := (moves_perform transport act hsub).exists_follows
      obtain rfl := Option.some.inj (hnext.symm.trans hsub')
      exact .inr (Standing.heeds_of_gathers (hfollows.command ▸ hc) rules schema _)
    · obtain ⟨next, hnext, hcommand, hadvances⟩ :=
        Cluster.exists_advances hw act hsub (Bool.eq_false_iff.mpr hc)
      obtain rfl := Option.some.inj (hnext.symm.trans hsub')
      rw [hcommand]
      generalize next.standing = standing at hadvances
      cases hadvances with
      | stays => exact h sub hsub
      | cancelled => exact .inl (.inr (.inl rfl))
      | aborted => exact .inl (.inr (.inr rfl))
      | settles _ _ settles => exact .inr (settles.heeds hw.state htable)

theorem Obeys.run (h : w.Obeys rules schema ticket)
    (hw : w.Upholds (Governed accepts rules) (Opens accepts rules)) (htable : w.state.tables.Has schema)
    (huses : Uses accepts rules acts) : (w.run transport acts).Obeys rules schema ticket := by
  induction acts generalizing w with
  | nil => exact h
  | cons act acts ih =>
    have huse : Uses accepts rules [act] ∧ Uses accepts rules acts :=
      Uses.append (show Uses accepts rules ([act] ++ acts) from huses)
    have hw' : (w.perform transport act).Upholds (Governed accepts rules) (Opens accepts rules) :=
      hw.perform Cluster.sustains_opens fun f hf =>
        (huse.1 f (hf ▸ List.mem_singleton_self _)).governed hw.state
    exact ih (h.perform hw htable act) hw' (has_run htable huse.1) huse.2

/-- The command of this ticket is a CREATE TABLE with the schema, and has resolved. -/
def Created (w : World Cluster Held) (ticket : Nat) (schema : Schema) : Prop :=
  ∃ sub response, w.submissions[ticket]? = some sub ∧ sub.command = .createTable schema ∧
    sub.standing = .resolved response

theorem Obeys.not_created (h : w.Obeys rules schema ticket) {schema' : Schema}
    (hname : schema'.name = schema.name) : ¬ w.Created ticket schema' := by
  rintro ⟨sub, response, hsub, hcommand, hresolved⟩
  rcases h sub hsub with hunanswered | hheeds
  · rw [hresolved] at hunanswered
    rcases hunanswered with hpending | hcancelled | haborted
    · cases hpending
    · cases hcancelled
    · cases haborted
  · obtain ⟨f, hfailed, -⟩ := hheeds.refused schema' hcommand hname
    rw [hresolved] at hfailed
    cases hfailed

theorem created_cases (hw : w.Upholds (Governed accepts rules) (Opens accepts rules))
    (h : (w.perform transport act).Created ticket schema) :
    w.Created ticket schema ∨ w.standing ticket = .pending ∧ act.owner = some ticket ∧
      (w.perform transport act).state.tables.Has schema := by
  obtain ⟨sub', response, hsub', hcreate, hresolved⟩ := h
  cases hsub : w.submissions[ticket]? with
  | none =>
    rw [(fresh_perform hsub hsub').1] at hresolved
    cases hresolved
  | some sub =>
    obtain ⟨next, hnext, hfollows⟩ := (moves_perform transport act hsub).exists_follows
    obtain rfl := Option.some.inj (hnext.symm.trans hsub')
    have hcommand : sub.command = .createTable schema := hfollows.command.symm.trans hcreate
    obtain ⟨other, hother, -, hadvances⟩ :=
      Cluster.exists_advances hw act hsub (by rw [hcommand]; rfl)
    obtain rfl := Option.some.inj (hother.symm.trans hnext)
    rw [hresolved] at hadvances
    generalize hstanding : Standing.resolved response = standing at hadvances
    cases hadvances with
    | stays => exact .inl ⟨sub, response, hsub, hcommand, hstanding.symm⟩
    | cancelled | aborted => cases hstanding
    | settles pending owner settles =>
      rw [hcommand] at settles hstanding
      exact .inr ⟨(standing_eq hsub).trans pending, owner, settles.has hstanding.symm⟩

/-- Every CREATE TABLE that has resolved has left its table, and no two of one name have. -/
structure Creates (w : World Cluster Held) : Prop where
  has : ∀ ticket schema, w.Created ticket schema → w.state.tables.Has schema
  once : ∀ ticket ticket' schema schema', w.Created ticket schema → w.Created ticket' schema' →
    schema'.name = schema.name → ticket' = ticket

theorem creates_start (settings : Settings) (c : Cluster) :
    (start settings c : World Cluster Held).Creates := by
  have hnone (ticket : Nat) (schema : Schema) :
      ¬ (start settings c : World Cluster Held).Created ticket schema := by
    rintro ⟨sub, response, hsub, -⟩
    simp [start] at hsub
  exact ⟨fun ticket schema h => absurd h (hnone ticket schema),
    fun ticket _ schema _ h => absurd h (hnone ticket schema)⟩

theorem Creates.perform (h : w.Creates)
    (hw : w.Upholds (Governed accepts rules) (Opens accepts rules)) (huses : Uses accepts rules [act]) :
    (w.perform transport act).Creates := by
  -- A table that has been created before the act is not created on it.
  have hlate {ticket ticket' : Nat} {schema schema' : Schema} (hcreated : w.Created ticket schema)
      (hpending : w.standing ticket' = .pending) (hname : schema'.name = schema.name) :
      ¬ (w.perform transport act).Created ticket' schema' :=
    ((obeys_of_pending hpending).perform hw (h.has ticket schema hcreated) act).not_created hname
  refine ⟨fun ticket schema hcreated => ?_,
    fun ticket ticket' schema schema' hcreated hcreated' hname => ?_⟩
  · rcases created_cases hw hcreated with hbefore | ⟨-, -, hhas⟩
    · exact has_run (h.has ticket schema hbefore) huses
    · exact hhas
  · rcases created_cases hw hcreated with hbefore | ⟨hpending, howner, -⟩ <;>
      rcases created_cases hw hcreated' with hbefore' | ⟨hpending', howner', -⟩
    · exact h.once ticket ticket' schema schema' hbefore hbefore' hname
    · exact absurd hcreated' (hlate hbefore hpending' hname)
    · exact absurd hcreated (hlate hbefore' hpending hname.symm)
    · exact Option.some.inj (howner'.symm.trans howner)

section Runs

variable {settings : Settings} {cluster : Cluster} {past rest : List (Act Cluster)}

theorem upholds_run (h : cluster.Governed accepts rules) (huses : Uses accepts rules acts) :
    ((start settings cluster).run transport acts).Upholds (Governed accepts rules)
      (Opens accepts rules) :=
  (upholds_start h settings).run Cluster.sustains_opens fun f hf _ hs => (huses f hf).governed hs

theorem creates_run (h : cluster.Governed accepts rules) (huses : Uses accepts rules acts) :
    ((start settings cluster).run transport acts).Creates := by
  induction acts using List.reverseRecOn with
  | nil => exact creates_start settings cluster
  | append_singleton acts act ih =>
    obtain ⟨hpast, hnow⟩ := huses.append
    rw [run_append]
    exact (ih hpast).perform (upholds_run h hpast) hnow

/-- What holds after `past` and `rest` of a table that is there after `past`. -/
structure StaysDefined (settings : Settings) (cluster : Cluster) (rules : List (Pattern × Rejection))
    (past rest : List (Act Cluster)) (schema : Schema) : Prop where
  has : ((start settings cluster).run transport (past ++ rest)).state.tables.Has schema
  obeys : ∀ ticket, ((start settings cluster).run transport past).standing ticket = .pending →
    ((start settings cluster).run transport (past ++ rest)).Obeys rules schema ticket
  described : (((start settings cluster).run transport (past ++ rest)).state.apply
    ⟨schema.name, .describeTable⟩).2 = .ok (.table schema)
  refused : ∀ table schema', schema'.name = schema.name →
    ∃ message, (((start settings cluster).run transport (past ++ rest)).state.apply
      ⟨table, .createTable schema'⟩).2 = .error ⟨.schema, message⟩

/-- The tables of a cluster are defined once in a run. -/
structure DefinesOnce (settings : Settings) (cluster : Cluster) (rules : List (Pattern × Rejection))
    (acts : List (Act Cluster)) : Prop where
  creates : ∀ past rest, acts = past ++ rest → ((start settings cluster).run transport past).Creates
  stays : ∀ past rest schema, acts = past ++ rest →
    ((start settings cluster).run transport past).state.tables.Has schema →
      StaysDefined settings cluster rules past rest schema
  told : ∀ schema : Schema, schema.description.describedColumns? = some schema.columns

theorem staysDefined (h : cluster.Governed accepts rules) (huses : Uses accepts rules (past ++ rest))
    (htable : ((start settings cluster).run transport past).state.tables.Has schema) :
    StaysDefined settings cluster rules past rest schema := by
  obtain ⟨hpast, hrest⟩ := huses.append
  have hhas : ((start settings cluster).run transport (past ++ rest)).state.tables.Has schema := by
    rw [run_append]
    exact has_run htable hrest
  refine ⟨hhas, fun ticket hpending => ?_, ?_, fun table schema' hname => ?_⟩
  · rw [run_append]
    exact (obeys_of_pending hpending).run (upholds_run h hpast) htable hrest
  · simp only [Cluster.apply, hhas.describe]
  · obtain ⟨message, happly⟩ := hhas.create hname
      ((start settings cluster).run transport (past ++ rest)).state.origin table
    exact ⟨message, by simp only [Cluster.apply, happly]⟩

/-- In every run over a cluster that has just been built, its tables are defined once. -/
theorem tables_defined_once (settings : Settings) (requiresSecurity secured : Bool) (origin : Int64)
    (latencies : List (Pattern × Nat)) (rules : List (Pattern × Rejection)) (acts : List (Act Cluster))
    (huses : Uses (Cluster.start requiresSecurity secured origin latencies).Accepts rules acts) :
    DefinesOnce settings (.start requiresSecurity secured origin latencies) rules acts := by
  have hgoverned := Cluster.governed_start requiresSecurity secured origin latencies rules
  refine ⟨?_, ?_, Schema.describedColumns?_description⟩
  · rintro past rest rfl
    exact creates_run hgoverned huses.append.1
  · rintro past rest schema rfl htable
    exact staysDefined hgoverned huses htable

end Runs

end World

namespace World

/-! Two tables of loads are created at once, the one without the loads being the first to be answered. -/

namespace Defining

def narrow : Schema := { Loads.schema with columns := Loads.schema.columns.take 2 }

def rules : List (Pattern × Rejection) := [(⟨some .listKeys, none, none⟩, ⟨.notActive, "down"⟩)]

def cluster : Cluster := .start false false 0 [(⟨some .createTable, none, none⟩, 5)]

def others (c : Cluster) : Cluster :=
  c.failWhen ⟨some .listKeys, none, none⟩ ⟨.notActive, "down"⟩

def acts : List (Act Cluster) :=
  [.submit (.createTable Loads.schema) true, .submit (.createTable narrow) true, .turn 0 0, .turn 0 1,
    .drift others, .expire ⟨5, 1, 0⟩, .turn 5 1, .expire ⟨5, 0, 0⟩, .turn 5 0,
    .submit (.query "DESCRIBE loads" (.describe "loads")) true, .turn 5 2]

theorem uses_acts : Uses cluster.Accepts rules acts := by
  intro f hf
  have hothers : f = others := by simpa [acts] using hf
  rw [hothers]
  exact .failWhen (List.mem_singleton_self _)

end Defining

/-- The narrow table is there and described, the wide one refused. -/
theorem loads_defined_once :
    ((start .standard Defining.cluster).run transport Defining.acts).standing 1 = .resolved .empty ∧
      ((start .standard Defining.cluster).run transport Defining.acts).standing 0 =
        .failed ⟨"loads", .createTable, .rejected ⟨.schema, "table loads already exists"⟩⟩ ∧
      ((start .standard Defining.cluster).run transport Defining.acts).standing 2 =
        .resolved (.rows Defining.narrow.description) ∧
      Uses Defining.cluster.Accepts Defining.rules Defining.acts ∧
      DefinesOnce .standard Defining.cluster Defining.rules Defining.acts :=
  ⟨by decide +kernel, by decide +kernel, by decide +kernel, Defining.uses_acts,
    tables_defined_once .standard false false 0 _ Defining.rules Defining.acts Defining.uses_acts⟩

end World

end Timeslice
