import Timeslice.Proofs.Cluster.Ending
import Timeslice.Proofs.Cluster.Schemas
import Timeslice.Proofs.Session.Courses
import Timeslice.Proofs.Session.Upholding

/-!
# What the one request of a command settles it with

A command that does not gather sends one request. On the turn that settles it the request has met
the tables as they were when the turn began, or a rejection that had waited for it.
-/

namespace Timeslice

variable {c : Command} {settings : Settings}

theorem Command.receive_eq_opened {stage : Stage} (h : ∀ f, stage ≠ .gathering f) (slot : Nat)
    (reply : Except Rejection Response) :
    c.receive settings stage slot reply = c.receive settings .opened slot reply := by
  cases stage with
  | unsent | opened => rfl
  | gathering f => exact absurd rfl (h f)

theorem Command.ends_of_receive {stage : Stage} {slot : Nat} {reply : Except Rejection Response}
    {outcome : Outcome} (hstage : ∀ f, stage ≠ .gathering f)
    (h : c.receive settings stage slot reply = .settled outcome) :
    c.Ends settings (.reply reply) outcome := by
  rw [receive_eq_opened hstage] at h
  rcases c.receive_opened settings slot reply with ⟨outcome', hreceive, hends⟩ | ⟨_, _, -, -, hgoes⟩
  · rw [hreceive] at h
    cases h
    exact hends
  · rw [hgoes] at h
    cases h

namespace Cluster

variable {accepts : Prop} {rules : List (Pattern × Rejection)} {s : Cluster} {t : Turn Cluster Held}
  {task : Task Held}

/-- What the tables are and what the command comes to once its first request is answered. -/
inductive Settles (settings : Settings) (accepts : Prop) (rules : List (Pattern × Rejection))
    (c : Command) (s : Cluster) : Tables → Outcome → Prop where
  | barred {rejection : Rejection} (bars : Bars accepts rules rejection) :
    Settles settings accepts rules c s s.tables (.error (.rejected rejection))
  | refused {rejection : Rejection} (apply : s.tables.apply s.origin c.opening = .error rejection) :
    Settles settings accepts rules c s s.tables (.error (.rejected rejection))
  | served {response : Response} {ts : Tables} {outcome : Outcome}
    (apply : s.tables.apply s.origin c.opening = .ok (response, ts))
    (ends : c.Ends settings (.reply (.ok response)) outcome) :
    Settles settings accepts rules c s ts outcome

theorem settles_conclude (s' : Cluster) (htables : s'.tables = s.tables)
    (horigin : s'.origin = s.origin) {held : Held} (hrequest : held.request = c.opening)
    (hheld : held.Governed accepts rules) {outcome : Outcome}
    (hends : c.Ends settings (.reply (s'.conclude held).2) outcome) :
    Settles settings accepts rules c s (s'.conclude held).1.tables outcome := by
  have hrejected {rejection : Rejection}
      (hends : c.Ends settings (.reply (.error rejection)) outcome) :
      outcome = .error (.rejected rejection) := by
    cases hends
    rfl
  cases hverdict : held.verdict with
  | some rejection =>
    simp only [conclude, hverdict] at hends ⊢
    rw [hrejected hends, htables]
    exact .barred (hheld.barred rejection hverdict)
  | none =>
    simp only [conclude, hverdict, Cluster.apply, htables, horigin, hrequest] at hends ⊢
    cases happly : s.tables.apply s.origin c.opening with
    | error rejection =>
      simp only [happly] at hends ⊢
      rw [hrejected hends, htables]
      exact .refused happly
    | ok result =>
      obtain ⟨response, ts⟩ := result
      simp only [happly] at hends ⊢
      exact .served happly hends

structure Settling (settings : Settings) (accepts : Prop) (rules : List (Pattern × Rejection))
    (c : Command) (s : Cluster) (t : Turn Cluster Held) : Prop extends Meeting c s t where
  kept : t.Kept (Governed accepts rules) (fun _ held => held.Governed accepts rules) c
  opening : ∀ f ∈ t.flights, f.taken.request = c.opening
  settles : ∀ outcome, t.outcome = some outcome →
    Settles settings accepts rules c s t.state.tables outcome

theorem Settling.hear (h : Settling settings accepts rules c s t) (hc : c.gathers = false)
    (hnone : t.outcome = none) (slot : Nat) {held : Held} (hrequest : held.request = c.opening)
    (hheld : held.Governed accepts rules) :
    Settling settings accepts rules c s (t.hear transport settings c slot held) := by
  obtain ⟨outcome, hreceive⟩ := Command.exists_settled settings hc h.stage slot
    (t.state.leave.conclude held).2
  have hhear : t.hear transport settings c slot held =
      { t with state := (t.state.leave.conclude held).1, outcome := some outcome } := by
    simp only [Turn.hear, transport, Turn.advance, hreceive]
  have hmeeting := h.toMeeting.hear settings hc hnone slot (.inl hrequest)
  have hkept : (t.hear transport settings c slot held).Kept (Governed accepts rules)
      (fun _ held => held.Governed accepts rules) c :=
    h.kept.hear keeps_governed trivial slot hheld
  rw [hhear] at hmeeting hkept ⊢
  refine ⟨hmeeting, hkept, h.opening, ?_⟩
  rintro _ ⟨⟩
  exact settles_conclude t.state.leave (h.waiting hnone) h.origin hrequest hheld
    (Command.ends_of_receive h.stage hreceive)

theorem Settling.send (h : Settling settings accepts rules c s t) (hc : c.gathers = false)
    (hnone : t.outcome = none) (slot : Nat) :
    Settling settings accepts rules c s (t.send transport settings c slot c.opening) := by
  have hrequest : (t.state.judge c.opening).taken.request = c.opening := taken_judge _ _
  have hheld := governed_judge h.kept.state c.opening
  have hstate : (t.state.enter c.opening).Governed accepts rules :=
    ⟨h.kept.state.accepts_iff, h.kept.state.failures, h.kept.state.tables⟩
  have harrive : transport.arrive t.state c.opening =
      (t.state.enter c.opening, t.state.judge c.opening) := rfl
  by_cases hdelay : (t.state.judge c.opening).delay = 0
  · have harrived : Settling settings accepts rules c s
        { t with state := t.state.enter c.opening } :=
      ⟨⟨h.flights, h.stage, h.origin, h.waiting, h.tables⟩, ⟨hstate, h.kept.flights, h.kept.sleeps⟩,
        h.opening, h.settles⟩
    rw [Turn.send_atOnce c slot harrive hdelay]
    exact harrived.hear hc hnone slot hrequest hheld
  · have hmeeting := h.toMeeting.send settings hc hnone slot (.inl rfl)
    have hkept : (t.send transport settings c slot c.opening).Kept (Governed accepts rules)
        (fun _ held => held.Governed accepts rules) c :=
      h.kept.send keeps_governed trivial slot (.inl rfl)
    rw [Turn.send_delayed c slot harrive hdelay] at hmeeting hkept ⊢
    refine ⟨hmeeting, hkept, fun f hf => ?_, fun outcome houtcome => ?_⟩
    · rcases List.mem_append.mp hf with hf | hf
      · exact h.opening f hf
      · rw [List.mem_singleton.mp hf]
        exact hrequest
    · rw [show t.outcome = none from hnone] at houtcome
      cases houtcome

/-- The task's flights are governed, and for the first request if the command does not gather. -/
structure Opens (accepts : Prop) (rules : List (Pattern × Rejection)) (c : Command)
    (task : Task Held) : Prop where
  tidy : task.Tidy c
  flights : ∀ f ∈ task.flights, f.taken.Governed accepts rules
  opening : c.gathers = false → ∀ f ∈ task.flights, f.taken.request = c.opening

variable (settings) in
/-- A turn of a command that does not gather settles it with the answer to its first request. -/
theorem settling_run (hc : c.gathers = false) (hs : s.Governed accepts rules)
    (htask : Opens accepts rules c task) :
    Settling settings accepts rules c s (task.run transport settings c s) := by
  have hopening := htask.opening hc
  refine Task.run_induction ⟨⟨?_, ?_, rfl, fun _ => rfl, .inl rfl⟩, ⟨hs, htask.flights, by rintro p ⟨⟩⟩,
    hopening, by rintro outcome ⟨⟩⟩ ?_ ?_ ?_ ?_
  · exact fun f hf => .inl (hopening f hf)
  · intro f hf
    have htidy := htask.tidy
    unfold Task.Tidy at htidy
    rw [show task.stage = .gathering f from hf, Stage.Tidy, hc] at htidy
    cases htidy.1
  · intro t slot f ht hnone hf
    have hmem := List.mem_of_find?_eq_some hf
    have hrest {g : Flight Held} (hg : g ∈ (t.land slot).flights) : g ∈ t.flights :=
      (List.mem_filter.mp hg).1
    have hland : Settling settings accepts rules c s (t.land slot) :=
      ⟨⟨fun g hg => ht.flights g (hrest hg), ht.stage, ht.origin, ht.waiting, ht.tables⟩,
        ⟨ht.kept.state, fun g hg => ht.kept.flights g (hrest hg), ht.kept.sleeps⟩,
        fun g hg => ht.opening g (hrest hg), ht.settles⟩
    exact hland.hear hc hnone slot (ht.opening f hmem) (ht.kept.flights f hmem)
  · intro t ht hnone _
    have hopened : Settling settings accepts rules c s { t with stage := .opened } :=
      ⟨⟨ht.flights, by rintro f ⟨⟩, ht.origin, ht.waiting, ht.tables⟩,
        ⟨ht.kept.state, ht.kept.flights, ht.kept.sleeps⟩, ht.opening, ht.settles⟩
    exact hopened.send hc hnone 0
  · exact fun t f _ _ _ ht _ hstage _ => absurd hstage (ht.stage f)
  · intro t ht _
    obtain ⟨htables, -, horigin⟩ := abandonAll_spec t.state t.flights
    refine ⟨⟨by rintro f ⟨⟩, ht.stage, horigin.trans ht.origin,
        fun hnone => htables.trans (ht.waiting hnone), ht.tables.imp htables.trans htables.trans⟩,
      ⟨Turn.abandonAll_keeps keeps_governed ht.kept.state t.flights, by rintro f ⟨⟩,
        ht.kept.sleeps⟩, by rintro f ⟨⟩, fun outcome houtcome => ?_⟩
    rw [htables]
    exact ht.settles outcome houtcome

theorem sustains_opens : World.Sustains transport (Governed accepts rules) (Opens accepts rules) where
  start _ := ⟨rfl, by rintro f ⟨⟩, by rintro - f ⟨⟩⟩
  turn settings c state task hstate htask := by
    have hrun : (task.run transport settings c state).Kept (Governed accepts rules)
        (fun _ held => held.Governed accepts rules) c :=
      Turn.kept_run keeps_governed trivial hstate htask.flights
    exact ⟨hrun.state, Task.tidy_run transport settings state htask.tidy, hrun.flights,
      fun hc => (settling_run settings hc hstate htask).opening⟩
  wake _ _ _ htask := ⟨htask.tidy, htask.flights, htask.opening⟩
  drop _ task hstate := Turn.abandonAll_keeps keeps_governed hstate task.flights

end Cluster

end Timeslice
