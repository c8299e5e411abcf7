import Timeslice.Proofs.Results
import Timeslice.Proofs.Session.Fanout
import Timeslice.Session.Task

/-!
# Turns of a task that gathers answers

What the steps of a turn do to a task in the middle of a fan-out: a request that is sent, an answer
that is heard, and the loops over both.
-/

namespace Timeslice.Turn

open Fanout (inFlight)

variable {σ τ : Type}

/-- The turn is in a fan-out that has sent the first `m` pieces and heard these parts but not all,
and its flights are those of the given pieces. -/
structure At (plan : Plan) (m : Nat) (heard : List (Nat × ResultSet)) (flying : List Nat)
    (t : Turn σ τ) : Prop where
  possible : Fanout.Possible plan m heard
  incomplete : heard.length < plan.pieces.length
  outcome : t.outcome = none
  stage : t.stage = .gathering (.after plan m heard)
  flights : (t.flights.map (·.slot)).Perm flying

inductive Hears (T : Transport σ τ) (plan : Plan) (m : Nat) (heard : List (Nat × ResultSet))
    (i : Nat) (taken : τ) (t : Turn σ τ) : Turn σ τ → Prop where
  | silent {state : σ} (answer : T.answer t.state taken = (state, .silent)) :
    Hears T plan m heard i taken t
      { t with state := state, flights := t.flights ++ [⟨i, taken⟩] }
  | broken {state : σ} (answer : T.answer t.state taken = (state, .broken)) :
    Hears T plan m heard i taken t { t with state := state, outcome := some (.error .aborted) }
  | failed {state : σ} {r : Except Rejection Response} {cause : FailureCause}
    (answer : T.answer t.state taken = (state, .reply r))
    (part : Fanout.part plan r = .error cause) :
    Hears T plan m heard i taken t { t with state := state, outcome := some (.error cause) }
  | last {state : σ} {r : Except Rejection Response} {p : ResultSet}
    (answer : T.answer t.state taken = (state, .reply r)) (part : Fanout.part plan r = .ok p)
    (complete : (heard ++ [(i, p)]).length = plan.pieces.length) :
    Hears T plan m heard i taken t
      { t with
        state := state
        outcome := some (.ok (.rows (Fanout.after plan m (heard ++ [(i, p)])).result)) }
  | next {state : σ} {r : Except Rejection Response} {p : ResultSet}
    (answer : T.answer t.state taken = (state, .reply r)) (part : Fanout.part plan r = .ok p)
    (incomplete : (heard ++ [(i, p)]).length < plan.pieces.length) :
    Hears T plan m heard i taken t
      { t with
        state := state
        stage := .gathering (.after plan m (heard ++ [(i, p)])) }

variable {T : Transport σ τ} {settings : Settings} {c : Command} {plan : Plan} {m i : Nat}
  {heard : List (Nat × ResultSet)} {t : Turn σ τ}

theorem hears (h : t.At plan m heard ((inFlight m heard).erase i)) (hi : i ∈ inFlight m heard)
    (taken : τ) : Hears T plan m heard i taken t (t.hear T settings c i taken) := by
  rcases hanswer : T.answer t.state taken with ⟨state, answer⟩
  unfold hear
  rw [hanswer]
  cases answer with
  | silent => exact .silent hanswer
  | broken => exact .broken hanswer
  | reply r =>
    have hreceive : c.receive settings (.gathering (.after plan m heard)) i r =
        ((Fanout.part plan r).map fun p => Fanout.after plan m (heard ++ [(i, p)])).rec
          (fun cause => .settled (.error cause)) fun f =>
            if f.isComplete then .settled (.ok (.rows f.result)) else .goesOn (.gathering f) := by
      rw [← Fanout.receive_after, Command.receive]
      cases (Fanout.after plan m heard).receive i r <;> rfl
    rw [← h.stage] at hreceive
    cases hpart : Fanout.part plan r with
    | error cause =>
      rw [hpart] at hreceive
      simp only [advance, hreceive]
      exact .failed hanswer hpart
    | ok p =>
      have hpossible := h.possible.hear hi p
      have hlength := h.incomplete
      rw [hpart] at hreceive
      by_cases hcomplete : (heard ++ [(i, p)]).length = plan.pieces.length
      · simp only [advance, hreceive, Except.map, hpossible.isComplete_iff.mpr hcomplete, if_true]
        exact .last hanswer hpart hcomplete
      · have hno : ¬ (Fanout.after plan m (heard ++ [(i, p)])).isComplete = true :=
          hpossible.isComplete_iff.not.mpr hcomplete
        simp only [advance, hreceive, Except.map, if_neg hno]
        refine .next hanswer hpart ?_
        rw [List.length_append, List.length_singleton] at hcomplete ⊢
        omega

theorem At.silent (h : t.At plan m heard ((inFlight m heard).erase i)) (hi : i ∈ inFlight m heard)
    (state : σ) (taken : τ) :
    ({ t with state := state, flights := t.flights ++ [⟨i, taken⟩] } : Turn σ τ).At plan m heard
      (inFlight m heard) := by
  refine ⟨h.possible, h.incomplete, h.outcome, h.stage, ?_⟩
  rw [List.map_append, List.map_singleton]
  exact (h.flights.append_right [i]).trans
    (List.perm_append_singleton i _ |>.trans (List.perm_cons_erase hi).symm)

theorem At.next (h : t.At plan m heard ((inFlight m heard).erase i)) (hi : i ∈ inFlight m heard)
    (state : σ) {p : ResultSet} (hincomplete : (heard ++ [(i, p)]).length < plan.pieces.length) :
    ({ t with
        state := state
        stage := .gathering (.after plan m (heard ++ [(i, p)])) } : Turn σ τ).At plan m
      (heard ++ [(i, p)]) (inFlight m (heard ++ [(i, p)])) := by
  refine ⟨h.possible.hear hi p, hincomplete, h.outcome, rfl, ?_⟩
  rw [← Fanout.inFlight_hear]
  exact h.flights

theorem At.flights_eq_nil (h : t.At plan m heard ((inFlight m heard).erase i))
    (hi : i ∈ inFlight m heard) {p : ResultSet}
    (hcomplete : (heard ++ [(i, p)]).length = plan.pieces.length) : t.flights = [] := by
  have hpossible := h.possible.hear hi p
  have hlength := hpossible.length_inFlight
  have hle := hpossible.le
  have hflights := h.flights.length_eq
  rw [Fanout.inFlight_hear p, List.length_map] at hflights
  exact List.eq_nil_of_length_eq_zero (by omega)

def land (t : Turn σ τ) (slot : Nat) : Turn σ τ :=
  { t with flights := t.flights.filter fun f => f.slot != slot }

theorem At.slots_land (h : t.At plan m heard (inFlight m heard)) (slot : Nat) :
    (t.land slot).flights.map (·.slot) = (t.flights.map (·.slot)).erase slot := by
  rw [(h.flights.nodup_iff.mpr Fanout.nodup_inFlight).erase_eq_filter, Turn.land, List.filter_map]
  rfl

theorem At.land (h : t.At plan m heard (inFlight m heard)) (slot : Nat) :
    (t.land slot).At plan m heard ((inFlight m heard).erase slot) := by
  refine ⟨h.possible, h.incomplete, h.outcome, h.stage, ?_⟩
  rw [h.slots_land slot]
  exact h.flights.erase slot

theorem wake_eq_self (h : t.outcome.isSome = true) (slot : Nat) :
    t.wake T settings c slot = t := by
  rw [wake, if_pos h]

variable (T settings c) in
theorem wake_cases (h : t.At plan m heard (inFlight m heard)) (slot : Nat) :
    t.wake T settings c slot = t ∨
      ∃ f ∈ t.flights, f.slot = slot ∧ slot ∈ inFlight m heard ∧
        Hears T plan m heard slot f.taken (t.land slot) (t.wake T settings c slot) := by
  unfold wake
  rw [if_neg (by simp [h.outcome])]
  split
  · exact .inl rfl
  · next f hfind =>
    have hslot : f.slot = slot := by
      have hfound := List.find?_some hfind
      exact beq_iff_eq.mp hfound
    have hmem := List.mem_of_find?_eq_some hfind
    have hi : slot ∈ inFlight m heard := by
      rw [← hslot]
      exact h.flights.mem_iff.mp (List.mem_map_of_mem hmem)
    exact .inr ⟨f, hmem, hslot, hi, hears (h.land slot) hi f.taken⟩

theorem At.wake_eq_hear (h : t.At plan m heard (inFlight m heard)) {f : Flight τ}
    (hf : f ∈ t.flights) :
    t.wake T settings c f.slot = (t.land f.slot).hear T settings c f.slot f.taken := by
  have hnodup : (t.flights.map (·.slot)).Nodup := h.flights.nodup_iff.mpr Fanout.nodup_inFlight
  have hfind : t.flights.find? (fun g => g.slot == f.slot) = some f := by
    obtain ⟨g, hg⟩ := Option.isSome_iff_exists.mp
      (List.find?_isSome (p := fun g : Flight τ => g.slot == f.slot).mpr ⟨f, hf, by simp⟩)
    have hslot := List.find?_some hg
    rw [hg, List.inj_on_of_nodup_map hnodup (List.mem_of_find?_eq_some hg) hf (beq_iff_eq.mp hslot)]
  rw [wake, if_neg (by simp [h.outcome]), hfind]
  rfl

theorem send_delayed (c : Command) (slot : Nat) {r : Request} {state : σ} {intake : Intake τ}
    (harrive : T.arrive t.state r = (state, intake)) (hdelay : intake.delay ≠ 0) :
    t.send T settings c slot r =
      { t with
        state := state
        flights := t.flights ++ [⟨slot, intake.taken⟩]
        sleeps := t.sleeps ++ [(slot, intake.delay)] } := by
  unfold send
  rw [harrive]
  exact if_neg hdelay

theorem send_atOnce (c : Command) (slot : Nat) {r : Request} {state : σ} {intake : Intake τ}
    (harrive : T.arrive t.state r = (state, intake)) (hdelay : intake.delay = 0) :
    t.send T settings c slot r =
      ({ t with state := state } : Turn σ τ).hear T settings c slot intake.taken := by
  unfold send
  rw [harrive]
  exact if_pos hdelay

def launched (plan : Plan) (m : Nat) (heard : List (Nat × ResultSet)) (t : Turn σ τ) (state : σ) :
    Turn σ τ :=
  { t with state := state, stage := .gathering (.after plan (m + 1) heard) }

inductive Sends (T : Transport σ τ) (plan : Plan) (m : Nat) (heard : List (Nat × ResultSet))
    (r : Request) (t : Turn σ τ) : Turn σ τ → Prop where
  | delayed {state : σ} {intake : Intake τ} (arrive : T.arrive t.state r = (state, intake))
    (delay : intake.delay ≠ 0) :
    Sends T plan m heard r t
      { t.launched plan m heard state with
        flights := t.flights ++ [⟨m, intake.taken⟩]
        sleeps := t.sleeps ++ [(m, intake.delay)] }
  | atOnce {state : σ} {intake : Intake τ} {t' : Turn σ τ}
    (arrive : T.arrive t.state r = (state, intake)) (delay : intake.delay = 0)
    (hears : Hears T plan (m + 1) heard m intake.taken (t.launched plan m heard state) t') :
    Sends T plan m heard r t t'

theorem mem_inFlight_succ (h : Fanout.Possible plan m heard) : m ∈ inFlight (m + 1) heard := by
  rw [h.inFlight_succ]
  exact List.mem_append_right _ (List.mem_singleton_self m)

theorem At.launched (h : t.At plan m heard (inFlight m heard)) (hm : m < plan.pieces.length)
    (state : σ) :
    (t.launched plan m heard state).At plan (m + 1) heard ((inFlight (m + 1) heard).erase m) := by
  refine ⟨h.possible.send hm, h.incomplete, h.outcome, rfl, ?_⟩
  have hnew : m ∉ inFlight m heard := fun hmem =>
    absurd (Fanout.mem_inFlight.mp hmem).1 (Nat.lt_irrefl m)
  rw [h.possible.inFlight_succ, List.erase_append_right _ hnew, List.erase_cons_head,
    List.append_nil]
  exact h.flights

theorem At.delayed (h : t.At plan m heard (inFlight m heard)) (hm : m < plan.pieces.length)
    (state : σ) (intake : Intake τ) :
    ({ t.launched plan m heard state with
        flights := t.flights ++ [⟨m, intake.taken⟩]
        sleeps := t.sleeps ++ [(m, intake.delay)] } : Turn σ τ).At plan (m + 1) heard
      (inFlight (m + 1) heard) := by
  refine ⟨h.possible.send hm, h.incomplete, h.outcome, rfl, ?_⟩
  rw [List.map_append, List.map_singleton, h.possible.inFlight_succ]
  exact h.flights.append_right [m]

theorem sends (h : t.At plan m heard (inFlight m heard)) (hm : m < plan.pieces.length)
    (r : Request) :
    Sends T plan m heard r t
      (({ t with stage := .gathering (.after plan (m + 1) heard) } : Turn σ τ).send T settings c m
        r) := by
  rcases harrive : T.arrive t.state r with ⟨state, intake⟩
  by_cases hdelay : intake.delay = 0
  · rw [send_atOnce (t := { t with stage := .gathering (.after plan (m + 1) heard) }) c m harrive
      hdelay]
    exact .atOnce harrive hdelay
      (hears (h.launched hm state) (mem_inFlight_succ h.possible) intake.taken)
  · rw [send_delayed (t := { t with stage := .gathering (.after plan (m + 1) heard) }) c m harrive
      hdelay]
    exact .delayed harrive hdelay

theorem unsent_eq {f : Fanout} (hstage : t.stage = .gathering f) : t.unsent = f.unsent.length := by
  rw [unsent, hstage]

theorem unsent_advance {f : Fanout} (hstage : t.stage = .gathering f) (slot : Nat)
    (reply : Except Rejection Response) :
    (t.advance settings c slot reply).unsent = f.unsent.length := by
  unfold advance
  split
  · next stage hgoes =>
    rw [hstage] at hgoes
    simp only [Command.receive] at hgoes
    split at hgoes
    · cases hgoes
    · next f' hreceive =>
      obtain ⟨p, -, rfl⟩ := Except.exists_of_map hreceive
      split_ifs at hgoes
      cases hgoes
      rfl
  · exact unsent_eq hstage

theorem unsent_hear {f : Fanout} (hstage : t.stage = .gathering f) (slot : Nat) (taken : τ) :
    (t.hear T settings c slot taken).unsent = f.unsent.length := by
  unfold hear
  rcases T.answer t.state taken with ⟨state, answer⟩
  cases answer with
  | reply r => exact unsent_advance (t := { t with state := state }) hstage slot r
  | silent | broken => exact unsent_eq hstage

theorem unsent_send {f : Fanout} (hstage : t.stage = .gathering f) (slot : Nat) (r : Request) :
    (t.send T settings c slot r).unsent = f.unsent.length := by
  unfold send
  rcases T.arrive t.state r with ⟨state, intake⟩
  dsimp only
  split_ifs
  · exact unsent_hear (t := { t with state := state }) hstage slot intake.taken
  · exact unsent_eq hstage

theorem launch_succ {f f' : Fanout} {slot : Nat} {piece : Piece} (houtcome : t.outcome = none)
    (hstage : t.stage = .gathering f)
    (hsend : f.send? settings.concurrency.toNat = some ((slot, piece), f')) (n : Nat) :
    launch T settings c (n + 1) t =
      launch T settings c n (({ t with stage := .gathering f' } : Turn σ τ).send T settings c slot
        ⟨c.table, .query piece⟩) := by
  rw [launch]
  simp only [houtcome, hstage, hsend]

theorem launch_eq_self (h : ∀ f, t.outcome = none → t.stage = .gathering f →
    f.send? settings.concurrency.toNat = none) (n : Nat) : launch T settings c n t = t := by
  cases n with
  | zero => rfl
  | succ n =>
    rw [launch]
    split
    · next f houtcome hstage => rw [h f houtcome hstage]
    · rfl

theorem launch_induction {P : Turn σ τ → Prop}
    (hsend : ∀ (t : Turn σ τ) f slot piece f', P t → t.outcome = none → t.stage = .gathering f →
      f.send? settings.concurrency.toNat = some ((slot, piece), f') →
        P (({ t with stage := .gathering f' } : Turn σ τ).send T settings c slot
          ⟨c.table, .query piece⟩))
    (h : P t) (n : Nat) : P (launch T settings c n t) := by
  induction n generalizing t with
  | zero => exact h
  | succ n ih =>
    by_cases hstuck : ∀ g, t.outcome = none → t.stage = .gathering g →
        g.send? settings.concurrency.toNat = none
    · rw [launch_eq_self hstuck]
      exact h
    · push Not at hstuck
      obtain ⟨f, hnone, hgathering, hroom⟩ := hstuck
      obtain ⟨⟨⟨slot, piece⟩, f'⟩, hroom⟩ := Option.ne_none_iff_exists'.mp hroom
      rw [launch_succ hnone hgathering hroom]
      exact ih (hsend t f slot piece f' h hnone hgathering hroom)

theorem launch_full {n : Nat} (hn : t.unsent ≤ n) {f : Fanout}
    (houtcome : (launch T settings c n t).outcome = none)
    (hstage : (launch T settings c n t).stage = .gathering f) :
    f.send? settings.concurrency.toNat = none := by
  induction n generalizing t with
  | zero =>
    rw [launch] at hstage
    rw [unsent_eq hstage] at hn
    rw [Fanout.send?, List.eq_nil_of_length_eq_zero (Nat.le_zero.mp hn)]
  | succ n ih =>
    by_cases hstuck : ∀ g, t.outcome = none → t.stage = .gathering g →
        g.send? settings.concurrency.toNat = none
    · rw [launch_eq_self hstuck] at houtcome hstage
      exact hstuck f houtcome hstage
    · push Not at hstuck
      obtain ⟨g, hnone, hgathering, hsend⟩ := hstuck
      obtain ⟨⟨⟨slot, piece⟩, f'⟩, hsend⟩ := Option.ne_none_iff_exists'.mp hsend
      rw [launch_succ hnone hgathering hsend] at houtcome hstage
      refine ih ?_ houtcome hstage
      have hless := Fanout.length_unsent_send hsend
      rw [unsent_eq hgathering] at hn
      rw [unsent_send rfl]
      omega

theorem openUp_eq_self (h : t.outcome = none → t.stage ≠ .unsent) :
    t.openUp T settings c = t := by
  unfold openUp
  split
  · next houtcome hstage => exact absurd hstage (h houtcome)
  · rfl

theorem close_eq_self (h : t.outcome = none) : t.close T = t := by
  rw [close, if_neg (by simp [h])]

theorem close_launch_full {n : Nat} (hn : t.unsent ≤ n) {f : Fanout}
    (houtcome : ((launch T settings c n t).close T).outcome = none)
    (hstage : ((launch T settings c n t).close T).stage = .gathering f) :
    f.send? settings.concurrency.toNat = none := by
  have hnone : (launch T settings c n t).outcome = none := by
    by_contra hsome
    rw [close, if_pos (Option.ne_none_iff_isSome.mp hsome)] at houtcome
    exact hsome houtcome
  rw [close_eq_self hnone] at hstage
  exact launch_full hn hnone hstage

def gather (T : Transport σ τ) (settings : Settings) (c : Command) (schema : Schema) (state : σ) :
    Turn σ τ :=
  let t := (⟨state, .opened, [], [], none⟩ : Turn σ τ).advance settings c 0 (.ok (.table schema))
  (launch T settings c t.unsent t).close T

variable {schema : Schema} {text : String} {select : Select}

theorem advance_opened (hplan : schema.plan settings select = .ok plan) (state : σ) :
    (⟨state, .opened, [], [], none⟩ : Turn σ τ).advance settings (.query text (.select select)) 0
        (.ok (.table schema)) =
      if plan.pieces.isEmpty then ⟨state, .opened, [], [], some (.ok (.rows .empty))⟩
      else ⟨state, .gathering (.ofPlan plan), [], [], none⟩ := by
  simp only [advance, Command.receive, Command.afterOpening, Response.asTable, Command.plan, hplan]
  split_ifs <;> rfl

end Timeslice.Turn

namespace Timeslice.Task

variable {σ τ : Type} {T : Transport σ τ} {settings : Settings} {c : Command} {schema : Schema}
  {state state' : σ}

/-- What holds of a turn in all its steps: it is woken for a flight, sends the first request or a
piece, and in the end abandons what is still in flight. -/
theorem run_induction {P : Turn σ τ → Prop} {task : Task τ}
    (start : P ⟨state, task.stage, task.flights, [], none⟩)
    (wakes : ∀ (t : Turn σ τ) slot f, P t → t.outcome = none →
      t.flights.find? (fun f => f.slot == slot) = some f →
        P ((t.land slot).hear T settings c slot f.taken))
    (opens : ∀ t : Turn σ τ, P t → t.outcome = none → t.stage = .unsent →
      P (({ t with stage := .opened } : Turn σ τ).send T settings c 0 c.opening))
    (sends : ∀ (t : Turn σ τ) f slot piece f', P t → t.outcome = none → t.stage = .gathering f →
      f.send? settings.concurrency.toNat = some ((slot, piece), f') →
        P (({ t with stage := .gathering f' } : Turn σ τ).send T settings c slot
          ⟨c.table, .query piece⟩))
    (closes : ∀ t : Turn σ τ, P t → t.outcome.isSome = true →
      P { t with state := Turn.abandonAll T t.state t.flights, flights := [] }) :
    P (task.run T settings c state) := by
  have hwake : ∀ slot (t : Turn σ τ), P t → P (t.wake T settings c slot) := by
    intro slot t ht
    unfold Turn.wake
    split_ifs with hsome
    · exact ht
    · split
      · exact ht
      · next f hfind => exact wakes t slot f ht (by simpa using hsome) hfind
  have hwoken : ∀ (woken : List Nat) (t : Turn σ τ), P t →
      P (woken.foldl (Turn.wake T settings c) t) := by
    intro woken
    induction woken with
    | nil => exact fun t ht => ht
    | cons slot rest ih => exact fun t ht => ih _ (hwake slot t ht)
  have hopened : ∀ t : Turn σ τ, P t → P (t.openUp T settings c) := by
    intro t ht
    unfold Turn.openUp
    split
    · next houtcome hstage => exact opens t ht houtcome hstage
    · exact ht
  have hsent := Turn.launch_induction sends (hopened _ (hwoken task.woken _ start))
  unfold Task.run Turn.close
  dsimp only
  split_ifs with hsome
  · exact closes _ (hsent _) hsome
  · exact hsent _

/-- A task that goes on after its turn has no room left. -/
theorem run_full {task : Task τ} {f : Fanout}
    (houtcome : (task.run T settings c state).outcome = none)
    (hstage : (task.run T settings c state).stage = .gathering f) :
    f.send? settings.concurrency.toNat = none :=
  Turn.close_launch_full (Nat.le_refl _) houtcome hstage

end Timeslice.Task
