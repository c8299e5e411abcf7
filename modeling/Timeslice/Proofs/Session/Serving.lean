import Timeslice.Proofs.Session.Preservation
import Timeslice.Proofs.Session.Turn

/-!
# A query that is served

Over a transport that replies to all requests of a query, each after a bounded time, the task of the
query awaits the schema and then the parts. Each answer that comes due is heard; the last one resolves
the query, unless one before has failed it.
-/

namespace Timeslice

open Fanout (inFlight)

variable {σ τ : Type}

/-- A planned SELECT: what its requests can be taken in as, the parts that can answer its pieces,
whether anything about it can fail, and the longest time that an answer takes. -/
structure Inquiry (τ : Type) where
  settings : Settings
  text : String
  select : Select
  schema : Schema
  plan : Plan
  Taken : Request → τ → Prop
  Fine : Piece → ResultSet → Prop
  Fails : Prop
  slowest : Nat

namespace Inquiry

def command (x : Inquiry τ) : Command :=
  .query x.text (.select x.select)

def pieceRequest (x : Inquiry τ) (piece : Piece) : Request :=
  ⟨x.select.table, .query piece⟩

def Asks (x : Inquiry τ) (r : Request) : Prop :=
  r = x.command.opening ∨ ∃ piece ∈ x.plan.pieces, r = x.pieceRequest piece

def Replies (x : Inquiry τ) (Good : Response → Prop) (a : Answer) : Prop :=
  (∃ response, Good response ∧ a = .reply (.ok response)) ∨
    x.Fails ∧ ∃ rejection, a = .reply (.error rejection)

def IsResult (x : Inquiry τ) (result : ResultSet) : Prop :=
  x.schema.plan x.settings x.select = .ok x.plan ∧
    ∃ parts, List.Forall₂ x.Fine x.plan.pieces parts ∧ result = x.plan.merge parts

/-- The transport keeps the states `P`, and in them it serves the requests of the SELECT. -/
structure IsServed (x : Inquiry τ) (T : Transport σ τ) (P : σ → Prop) (Q : Command → τ → Prop)
    (A : Command → Prop) : Prop where
  keeps : T.Keeps P Q A
  permitted : A x.command
  concurrency : 1 ≤ x.settings.concurrency.toNat
  planned : x.schema.plan x.settings x.select = .ok x.plan ∨
    x.Fails ∧ ∃ fault, x.schema.plan x.settings x.select = .error fault
  takes : ∀ s r, P s → x.Asks r → x.Taken r (T.arrive s r).2.taken ∧
    (T.arrive s r).2.delay ≤ x.slowest
  opening : ∀ s taken, P s → x.Taken x.command.opening taken →
    x.Replies (fun response => response = .table x.schema) (T.answer s taken).2
  pieces : ∀ s taken, ∀ piece ∈ x.plan.pieces, P s → x.Taken (x.pieceRequest piece) taken →
    x.Replies (fun response => ∃ part, x.Fine piece part ∧ response = .rows part)
      (T.answer s taken).2
  widths : ∀ piece ∈ x.plan.pieces, ∀ part, x.Fine piece part →
    ∀ row ∈ part.rows, row.length = x.plan.columns.length

inductive Awaits (x : Inquiry τ) (t : Turn σ τ) : Nat → Prop where
  | schema {taken : τ} (outcome : t.outcome = none) (stage : t.stage = .opened)
    (flights : t.flights = [⟨0, taken⟩]) (taken_of : x.Taken x.command.opening taken) : Awaits x t 0
  | parts {m : Nat} {heard : List (Nat × ResultSet)}
    (planned : x.schema.plan x.settings x.select = .ok x.plan)
    (at_ : t.At x.plan m heard (inFlight m heard))
    (taken : ∀ f ∈ t.flights, ∀ piece, x.plan.pieces[f.slot]? = some piece →
      x.Taken (x.pieceRequest piece) f.taken)
    (fine : ∀ h ∈ heard, ∀ piece, x.plan.pieces[h.1]? = some piece → x.Fine piece h.2) :
    Awaits x t (heard.length + 1)

/-- The turn awaits answers; those to the slots `due` have been on their way since before it. -/
structure Underway (x : Inquiry τ) (t : Turn σ τ) (due : List Nat) (answered : Nat) : Prop where
  awaits : x.Awaits t answered
  slots : (due ++ t.sleeps.map (·.1)).Perm (t.flights.map (·.slot))
  sleeps : ∀ p ∈ t.sleeps, p.2 ≤ x.slowest

def Concludes (x : Inquiry τ) (outcome : Outcome) : Prop :=
  (∃ result, x.IsResult result ∧ outcome = .ok (.rows result)) ∨
    x.Fails ∧ ∃ cause, outcome = .error cause

/-- The turn has concluded the query, or has heard at least this number of answers and awaits
others. -/
def OnCourse (x : Inquiry τ) (t : Turn σ τ) (due : List Nat) (answered : Nat) : Prop :=
  (∃ outcome, t.outcome = some outcome ∧ x.Concludes outcome) ∨
    ∃ n, answered ≤ n ∧ x.Underway t due n

variable {x : Inquiry τ} {T : Transport σ τ} {P : σ → Prop} {Q : Command → τ → Prop}
  {A : Command → Prop} {t : Turn σ τ} {due : List Nat} {m n answered : Nat}
  {heard : List (Nat × ResultSet)} {settings : Settings}

theorem Awaits.outcome_eq (h : x.Awaits t answered) : t.outcome = none := by
  cases h with
  | schema outcome => exact outcome
  | parts _ hat => exact hat.outcome

theorem Awaits.answered_le (h : x.Awaits t answered) : answered ≤ x.plan.pieces.length := by
  cases h with
  | schema => exact Nat.zero_le _
  | parts _ hat => exact hat.incomplete

theorem Awaits.openUp_eq (h : x.Awaits t answered) : t.openUp T settings x.command = t := by
  refine Turn.openUp_eq_self fun _ hunsent => ?_
  cases h with
  | schema outcome stage =>
    rw [stage] at hunsent
    cases hunsent
  | parts _ hat =>
    rw [hat.stage] at hunsent
    cases hunsent

theorem OnCourse.mono (h : x.OnCourse t due answered) (hle : n ≤ answered) :
    x.OnCourse t due n := by
  rcases h with h | ⟨k, hk, h⟩
  · exact .inl h
  · exact .inr ⟨k, Nat.le_trans hle hk, h⟩

theorem OnCourse.underway (h : x.OnCourse t due answered) (houtcome : t.outcome = none) :
    ∃ n, answered ≤ n ∧ x.Underway t due n := by
  rcases h with ⟨outcome, hsome, -⟩ | h
  · rw [houtcome] at hsome
    cases hsome
  · exact h

theorem hear_schema (hx : x.IsServed T P Q A) {state : σ} (hstate : P state) {taken : τ}
    (htaken : x.Taken x.command.opening taken) :
    x.OnCourse ((⟨state, .opened, [], [], none⟩ : Turn σ τ).hear T x.settings x.command 0 taken)
      [] 1 := by
  rcases hanswer : T.answer state taken with ⟨state', a⟩
  have hreplies := hx.opening state taken hstate htaken
  rw [hanswer] at hreplies
  rcases hreplies with ⟨_, rfl, rfl⟩ | ⟨hfails, rejection, rfl⟩
  · have hhear : (⟨state, .opened, [], [], none⟩ : Turn σ τ).hear T x.settings x.command 0 taken =
        (⟨state', .opened, [], [], none⟩ : Turn σ τ).advance x.settings x.command 0
          (.ok (.table x.schema)) := by
      simp only [Turn.hear, hanswer]
    rw [hhear]
    rcases hx.planned with hplan | ⟨hfails, fault, hfault⟩
    · rw [command, Turn.advance_opened hplan]
      split_ifs with hempty
      · have hnil : x.plan.pieces = [] := List.isEmpty_iff.mp hempty
        refine .inl ⟨_, rfl, .inl ⟨.empty, ⟨hplan, [], by rw [hnil]; exact .nil, ?_⟩, rfl⟩⟩
        rw [Plan.merge, hnil]
        rfl
      · have hpieces : 0 < x.plan.pieces.length :=
          List.length_pos_iff.mpr fun hnil => hempty (by rw [hnil]; rfl)
        have hat : (⟨state', .gathering (.ofPlan x.plan), [], [], none⟩ : Turn σ τ).At x.plan 0 []
            (inFlight 0 []) :=
          ⟨Fanout.possible_start _, hpieces, rfl, by rw [Fanout.ofPlan_eq], .refl _⟩
        refine .inr ⟨1, Nat.le_refl 1, ?_, .refl _, by rintro p ⟨⟩⟩
        exact .parts hplan hat (by rintro f ⟨⟩) (by rintro h ⟨⟩)
    · have hadvance : (⟨state', .opened, [], [], none⟩ : Turn σ τ).advance x.settings x.command 0
          (.ok (.table x.schema)) =
            ⟨state', .opened, [], [], some (.error (.unplannable fault))⟩ := by
        simp only [Turn.advance, command, Command.receive, Command.afterOpening, Response.asTable,
          Command.plan, hfault]
      rw [hadvance]
      exact .inl ⟨_, rfl, .inr ⟨hfails, _, rfl⟩⟩
  · have hhear : (⟨state, .opened, [], [], none⟩ : Turn σ τ).hear T x.settings x.command 0 taken =
        ⟨state', .opened, [], [], some (.error (.rejected rejection))⟩ := by
      simp only [Turn.hear, hanswer, Turn.advance, Command.receive]
    rw [hhear]
    exact .inl ⟨_, rfl, .inr ⟨hfails, _, rfl⟩⟩

theorem isResult_of_complete (hplan : x.schema.plan x.settings x.select = .ok x.plan)
    (hpossible : Fanout.Possible x.plan m heard) (hcomplete : heard.length = x.plan.pieces.length)
    (hfine : ∀ h ∈ heard, ∀ piece, x.plan.pieces[h.1]? = some piece → x.Fine piece h.2) :
    x.IsResult (Fanout.after x.plan m heard).result := by
  obtain ⟨parts, hparts⟩ := hpossible.exists_parts
  refine ⟨hplan, _, ?_, hpossible.result_eq hcomplete hparts⟩
  refine List.forall₂_iff_get.mpr ⟨by simp, fun i hi hi' => ?_⟩
  have hmem : i ∈ heard.map (·.1) :=
    (hpossible.heard_perm hcomplete).2.mem_iff.mpr (List.mem_range.mpr hi)
  obtain ⟨h, hh, rfl⟩ := List.mem_map.mp hmem
  have hpart := hfine h hh _ (List.getElem?_eq_getElem hi)
  simpa [hparts h hh] using hpart

theorem IsServed.exists_reply (hx : x.IsServed T P Q A) {state : σ} (hstate : P state) {piece : Piece}
    (hpiece : piece ∈ x.plan.pieces) {taken : τ} (htaken : x.Taken (x.pieceRequest piece) taken) :
    ∃ reply, (T.answer state taken).2 = .reply reply ∧
      ((∃ p, x.Fine piece p ∧ Fanout.part x.plan reply = .ok p) ∨
        x.Fails ∧ ∃ cause, Fanout.part x.plan reply = .error cause) := by
  rcases hx.pieces state taken piece hpiece hstate htaken with
    ⟨_, ⟨p, hp, rfl⟩, hanswer⟩ | ⟨hfails, rejection, hanswer⟩
  · have hpart := Fanout.part_eq_ok_iff.mpr (.rows (hx.widths piece hpiece p hp))
    exact ⟨_, hanswer, .inl ⟨p, hp, hpart⟩⟩
  · exact ⟨_, hanswer, .inr ⟨hfails, _, rfl⟩⟩

theorem hear_part (hx : x.IsServed T P Q A)
    (hplan : x.schema.plan x.settings x.select = .ok x.plan) (hstate : P t.state) {i : Nat}
    (hat : t.At x.plan m heard ((inFlight m heard).erase i)) (hi : i ∈ inFlight m heard)
    (htaken : ∀ f ∈ t.flights, ∀ piece, x.plan.pieces[f.slot]? = some piece →
      x.Taken (x.pieceRequest piece) f.taken)
    (hfine : ∀ h ∈ heard, ∀ piece, x.plan.pieces[h.1]? = some piece → x.Fine piece h.2)
    (hslots : (due ++ t.sleeps.map (·.1)).Perm (t.flights.map (·.slot)))
    (hsleeps : ∀ p ∈ t.sleeps, p.2 ≤ x.slowest) {piece : Piece}
    (hpiece : x.plan.pieces[i]? = some piece) {taken : τ}
    (hheld : x.Taken (x.pieceRequest piece) taken) :
    x.OnCourse (t.hear T x.settings x.command i taken) due (heard.length + 2) := by
  obtain ⟨reply, hanswer, hreply⟩ :=
    hx.exists_reply hstate (List.mem_of_getElem? hpiece) hheld
  have hheard : ∀ part, x.Fine piece part → ∀ h ∈ heard ++ [(i, part)], ∀ piece,
      x.plan.pieces[h.1]? = some piece → x.Fine piece h.2 := by
    intro part hpart h hh
    rcases List.mem_append.mp hh with hh | hh
    · exact hfine h hh
    · rw [List.mem_singleton.mp hh]
      rintro piece' hpiece'
      rw [hpiece] at hpiece'
      cases hpiece'
      exact hpart
  have hhears : Turn.Hears T x.plan m heard i taken t (t.hear T x.settings x.command i taken) :=
    Turn.hears hat hi taken
  generalize t.hear T x.settings x.command i taken = t' at hhears ⊢
  cases hhears with
  | silent answer | broken answer =>
    rw [answer] at hanswer
    cases hanswer
  | failed answer part =>
    rw [answer] at hanswer
    cases hanswer
    rcases hreply with ⟨p, -, hpart⟩ | ⟨hfails, -⟩
    · cases part.symm.trans hpart
    · exact .inl ⟨_, rfl, .inr ⟨hfails, _, rfl⟩⟩
  | last answer part complete =>
    rw [answer] at hanswer
    cases hanswer
    rcases hreply with ⟨p, hp, hpart⟩ | ⟨-, cause, hpart⟩
    · cases part.symm.trans hpart
      exact .inl ⟨_, rfl, .inl ⟨_, isResult_of_complete hplan (hat.possible.hear hi _) complete
        (hheard _ hp), rfl⟩⟩
    · cases part.symm.trans hpart
  | next answer part incomplete =>
    rw [answer] at hanswer
    cases hanswer
    rcases hreply with ⟨p, hp, hpart⟩ | ⟨-, cause, hpart⟩
    · cases part.symm.trans hpart
      refine .inr ⟨_, Nat.le_of_eq ?_, .parts hplan (hat.next hi _ incomplete) htaken
        (hheard _ hp), hslots, hsleeps⟩
      rw [List.length_append, List.length_singleton]
    · cases part.symm.trans hpart

theorem Underway.wake (hx : x.IsServed T P Q A) (hstate : P t.state) {slot : Nat}
    (h : x.Underway t (slot :: due) answered) :
    x.OnCourse (t.wake T x.settings x.command slot) due (answered + 1) := by
  obtain ⟨hawaits, hslots, hsleeps⟩ := h
  cases hawaits with
  | @schema taken outcome stage flights htaken =>
    have hlength := hslots.length_eq
    rw [flights] at hlength
    simp only [List.length_append, List.length_cons, List.length_map, List.length_nil] at hlength
    obtain rfl : due = [] := List.eq_nil_of_length_eq_zero (by omega)
    have hsleep : t.sleeps = [] := List.eq_nil_of_length_eq_zero (by omega)
    rw [flights, hsleep] at hslots
    obtain rfl : slot = 0 := by simpa using hslots
    have ht : t = ⟨t.state, .opened, [⟨0, taken⟩], [], none⟩ := by
      rw [← stage, ← flights, ← hsleep, ← outcome]
    have hwake : t.wake T x.settings x.command 0 =
        (⟨t.state, .opened, [], [], none⟩ : Turn σ τ).hear T x.settings x.command 0 taken := by
      rw [ht]
      simp [Turn.wake]
    rw [hwake]
    exact hear_schema hx hstate htaken
  | @parts m heard hplan hat htaken hfine =>
    have hmem : slot ∈ t.flights.map (·.slot) := hslots.mem_iff.mp List.mem_cons_self
    have hi : slot ∈ inFlight m heard := hat.flights.mem_iff.mp hmem
    obtain ⟨f, hf, rfl⟩ := List.mem_map.mp hmem
    have hlt : f.slot < x.plan.pieces.length :=
      Nat.lt_of_lt_of_le (Fanout.mem_inFlight.mp hi).1 hat.possible.le
    have hpiece := List.getElem?_eq_getElem hlt
    rw [hat.wake_eq_hear hf]
    refine hear_part (t := t.land f.slot) hx hplan hstate (hat.land f.slot) hi
      (fun g hg => htaken g (List.mem_of_mem_filter hg)) hfine ?_ hsleeps hpiece
      (htaken f hf _ hpiece)
    rw [hat.slots_land]
    have herase := hslots.erase f.slot
    rwa [List.cons_append, List.erase_cons_head] at herase

theorem OnCourse.wakeAll (hx : x.IsServed T P Q A) (ht : t.Kept P Q x.command)
    {woken : List Nat} (h : x.OnCourse t (woken ++ due) answered) :
    x.OnCourse (woken.foldl (Turn.wake T x.settings x.command) t) due
      (answered + woken.length) := by
  induction woken generalizing t answered with
  | nil => exact h
  | cons slot rest ih =>
    rw [List.foldl_cons, List.length_cons]
    have hkept := ht.wake x.settings hx.keeps hx.permitted slot
    rcases h with ⟨outcome, hsome, hconcludes⟩ | ⟨n, hn, hunderway⟩
    · rw [Turn.wake_eq_self (by rw [hsome]; rfl)] at hkept ⊢
      have hconcluded : x.OnCourse t (rest ++ due) (answered + 1) :=
        .inl ⟨outcome, hsome, hconcludes⟩
      exact (ih hkept hconcluded).mono (by omega)
    · exact (ih hkept (hunderway.wake hx ht.state)).mono (by omega)

theorem onCourse_openUp (hx : x.IsServed T P Q A) {state : σ} (hstate : P state) :
    x.OnCourse ((⟨state, .unsent, [], [], none⟩ : Turn σ τ).openUp T x.settings x.command)
      [] 0 := by
  have hkept := (hx.keeps.arrive x.command state x.command.opening hx.permitted (.inl rfl) hstate).1
  obtain ⟨htaken, hdelay⟩ := hx.takes state x.command.opening hstate (.inl rfl)
  rcases harrive : T.arrive state x.command.opening with ⟨arrived, intake⟩
  rw [harrive] at hkept htaken hdelay
  have hsent : (⟨state, .unsent, [], [], none⟩ : Turn σ τ).openUp T x.settings x.command =
      (⟨state, .opened, [], [], none⟩ : Turn σ τ).send T x.settings x.command 0
        x.command.opening := rfl
  rw [hsent]
  by_cases hzero : intake.delay = 0
  · rw [Turn.send_atOnce x.command 0 harrive hzero]
    exact (hear_schema hx hkept htaken).mono (Nat.zero_le 1)
  · rw [Turn.send_delayed x.command 0 harrive hzero]
    refine .inr ⟨0, Nat.le_refl 0, .schema rfl rfl rfl htaken, .refl _, fun p hp => ?_⟩
    rw [List.mem_singleton.mp hp]
    exact hdelay

theorem OnCourse.send (hx : x.IsServed T P Q A) (hstate : P t.state)
    (h : x.OnCourse t due answered) (houtcome : t.outcome = none) {f f' : Fanout} {slot : Nat}
    {piece : Piece} (hstage : t.stage = .gathering f)
    (hsend : f.send? x.settings.concurrency.toNat = some ((slot, piece), f')) :
    x.OnCourse (({ t with stage := .gathering f' } : Turn σ τ).send T x.settings x.command slot
      (x.pieceRequest piece)) due answered := by
  obtain ⟨n, hn, ⟨hawaits, hslots, hsleeps⟩⟩ := h.underway houtcome
  cases hawaits with
  | schema outcome stage =>
    rw [stage] at hstage
    cases hstage
  | @parts m heard hplan hat htaken hfine =>
    obtain rfl : f = .after x.plan m heard := by
      rw [hat.stage] at hstage
      cases hstage
      rfl
    obtain ⟨hm, -, hnext, rfl⟩ := hat.possible.send_some hsend
    obtain ⟨rfl, rfl⟩ := Prod.mk.inj hnext
    have hpiece : x.plan.pieces[slot]? = some x.plan.pieces[slot] := List.getElem?_eq_getElem hm
    have hkept := (hx.keeps.arrive x.command t.state (x.pieceRequest x.plan.pieces[slot])
      hx.permitted (.inr ⟨_, rfl⟩) hstate).1
    obtain ⟨htake, hdelay⟩ := hx.takes t.state (x.pieceRequest x.plan.pieces[slot]) hstate
      (.inr ⟨_, List.getElem_mem hm, rfl⟩)
    rcases harrive : T.arrive t.state (x.pieceRequest x.plan.pieces[slot]) with ⟨state, intake⟩
    rw [harrive] at hkept htake hdelay
    dsimp only at hkept htake hdelay
    by_cases hzero : intake.delay = 0
    · rw [Turn.send_atOnce (t := { t with stage := .gathering _ }) x.command slot harrive hzero]
      refine (hear_part (t := t.launched x.plan slot heard state) hx hplan hkept
        (hat.launched hm state) (Turn.mem_inFlight_succ hat.possible) htaken hfine hslots hsleeps
        hpiece htake).mono ?_
      omega
    · rw [Turn.send_delayed (t := { t with stage := .gathering _ }) x.command slot harrive hzero]
      refine .inr ⟨_, hn, .parts hplan (hat.delayed hm state intake) ?_ hfine, ?_, ?_⟩
      · intro g hg piece hp
        rcases List.mem_append.mp hg with hg | hg
        · exact htaken g hg piece hp
        · rw [List.mem_singleton.mp hg] at hp ⊢
          rw [hpiece] at hp
          cases hp
          exact htake
      · rw [List.map_append, List.map_append, ← List.append_assoc]
        exact hslots.append_right [slot]
      · intro p hp
        rcases List.mem_append.mp hp with hp | hp
        · exact hsleeps p hp
        · rw [List.mem_singleton.mp hp]
          exact hdelay

theorem OnCourse.launch (hx : x.IsServed T P Q A) (ht : t.Kept P Q x.command)
    (h : x.OnCourse t due answered) (n : Nat) :
    x.OnCourse (Turn.launch T x.settings x.command n t) due answered :=
  (Turn.launch_induction (P := fun t => t.Kept P Q x.command ∧ x.OnCourse t due answered)
    (fun t _ slot piece f' hkeeps houtcome hstage hsend =>
      ⟨Turn.Kept.send (t := { t with stage := .gathering f' }) hx.keeps hx.permitted
        ⟨hkeeps.1.state, hkeeps.1.flights, hkeeps.1.sleeps⟩ slot (.inr ⟨piece, rfl⟩),
        hkeeps.2.send hx hkeeps.1.state houtcome hstage hsend⟩) ⟨ht, h⟩ n).2

theorem OnCourse.close (h : x.OnCourse t due answered) : x.OnCourse (t.close T) due answered := by
  rcases h with ⟨outcome, hsome, hconcludes⟩ | ⟨n, hn, h⟩
  · left
    rw [Turn.close, if_pos (by rw [hsome]; rfl)]
    exact ⟨outcome, hsome, hconcludes⟩
  · rw [Turn.close_eq_self h.awaits.outcome_eq]
    exact .inr ⟨n, hn, h⟩

/-- The task awaits the answers to the slots `due` and to those that have woken it, and has no room to
send more. -/
structure Waits (x : Inquiry τ) (state : σ) (task : Task τ) (due : List Nat) (answered : Nat) :
    Prop where
  underway : x.Underway ⟨state, task.stage, task.flights, [], none⟩ (task.woken ++ due) answered
  full : ∀ f, task.stage = .gathering f → f.send? x.settings.concurrency.toNat = none

variable {state : σ} {task : Task τ}

theorem Waits.withState (h : x.Waits state task due answered) (state' : σ) :
    x.Waits state' task due answered := by
  obtain ⟨⟨hawaits, hslots, -⟩, hfull⟩ := h
  refine ⟨⟨?_, hslots, by rintro p ⟨⟩⟩, hfull⟩
  cases hawaits with
  | schema outcome stage flights taken => exact .schema outcome stage flights taken
  | parts hplan hat taken fine =>
    exact .parts hplan ⟨hat.possible, hat.incomplete, hat.outcome, hat.stage, hat.flights⟩ taken fine

theorem Waits.perm (h : x.Waits state task due answered) {due' : List Nat}
    (hperm : due'.Perm due) : x.Waits state task due' answered :=
  ⟨⟨h.underway.awaits, ((hperm.append_left task.woken).append_right _).trans h.underway.slots,
    h.underway.sleeps⟩, h.full⟩

theorem Waits.wake {slot : Nat} (h : x.Waits state task (slot :: due) answered) :
    x.Waits state { task with woken := task.woken ++ [slot] } due answered := by
  obtain ⟨⟨hawaits, hslots, hsleeps⟩, hfull⟩ := h
  have hmoved : (task.woken ++ [slot]) ++ due = task.woken ++ slot :: due := by
    rw [List.append_assoc, List.singleton_append]
  refine ⟨⟨hawaits, ?_, hsleeps⟩, hfull⟩
  dsimp only
  rw [hmoved]
  exact hslots

/-- A turn that goes on leaves a task that waits, also for what the turn has sent. -/
theorem Underway.waits (h : x.Underway t due answered)
    (hfull : ∀ f, t.stage = .gathering f → f.send? x.settings.concurrency.toNat = none) :
    x.Waits t.state ⟨t.stage, t.flights, []⟩ (due ++ t.sleeps.map (·.1)) answered := by
  obtain ⟨hawaits, hslots, -⟩ := h
  refine ⟨⟨?_, ?_, by rintro p ⟨⟩⟩, hfull⟩
  · cases hawaits with
    | schema outcome stage flights taken => exact .schema rfl stage flights taken
    | parts hplan hat taken fine =>
      exact .parts hplan ⟨hat.possible, hat.incomplete, rfl, hat.stage, hat.flights⟩ taken fine
  · rw [List.nil_append, List.map_nil, List.append_nil]
    exact hslots

theorem Waits.slots_ne_nil (hx : x.IsServed T P Q A)
    (h : x.Waits state task due answered) : task.woken ++ due ≠ [] := by
  obtain ⟨⟨hawaits, hslots, -⟩, hfull⟩ := h
  intro hnil
  rw [List.map_nil, List.append_nil, hnil] at hslots
  have hflights := hslots.symm.eq_nil
  cases hawaits with
  | schema outcome stage flights =>
    rw [show task.flights = _ from flights] at hflights
    cases hflights
  | @parts m heard hplan hat =>
    have hlength := hat.possible.length_inFlight
    have hincomplete := hat.incomplete
    have hconcurrency := hx.concurrency
    have hflying := hat.flights.length_eq
    rw [hflights, List.length_nil] at hflying
    rcases Fanout.send_none (hfull _ hat.stage) with hall | hroom
    · omega
    · omega

theorem onCourse_start (hx : x.IsServed T P Q A) (hstate : P state) :
    x.OnCourse (Task.run T x.settings x.command state .start) [] 0 := by
  have hstart : (⟨state, .unsent, [], [], none⟩ : Turn σ τ).Kept P Q x.command :=
    ⟨hstate, by rintro f ⟨⟩, by rintro p ⟨⟩⟩
  exact ((onCourse_openUp hx hstate).launch hx (hstart.openUp hx.keeps hx.permitted) _).close

/-- A later turn of the task hears all answers that have woken it. -/
theorem Waits.run (hx : x.IsServed T P Q A) (hstate : P state)
    (hflights : ∀ f ∈ task.flights, Q x.command f.taken)
    (h : x.Waits state task due answered) :
    x.OnCourse (Task.run T x.settings x.command state task) due (answered + task.woken.length) := by
  have hstart : (⟨state, task.stage, task.flights, [], none⟩ : Turn σ τ).Kept P Q x.command :=
    ⟨hstate, hflights, by rintro p ⟨⟩⟩
  have hwake := OnCourse.wakeAll hx hstart (.inr ⟨_, Nat.le_refl _, h.underway⟩)
  have hkept := hstart.wakeAll x.settings hx.keeps hx.permitted task.woken
  have hopened : (task.woken.foldl (Turn.wake T x.settings x.command)
      ⟨state, task.stage, task.flights, [], none⟩).openUp T x.settings x.command =
        task.woken.foldl (Turn.wake T x.settings x.command)
          ⟨state, task.stage, task.flights, [], none⟩ := by
    rcases hwake with ⟨outcome, hsome, -⟩ | ⟨n, -, hunderway⟩
    · exact Turn.openUp_eq_self fun hnone => by rw [hnone] at hsome; cases hsome
    · exact hunderway.awaits.openUp_eq
  simp only [Task.run, hopened]
  exact (hwake.launch hx hkept _).close

theorem Waits.run_idle (h : x.Waits state task due answered) (hwoken : task.woken = []) :
    Task.run T x.settings x.command state task =
      ⟨state, task.stage, task.flights, [], none⟩ := by
  rw [Task.run, hwoken, List.foldl_nil, h.underway.awaits.openUp_eq,
    Turn.launch_eq_self fun f _ => h.full f, Turn.close_eq_self rfl]

end Inquiry

end Timeslice
