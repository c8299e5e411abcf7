import Timeslice.Proofs.Session.Courses
import Timeslice.Proofs.Session.View

/-!
# Typed and untyped submissions

A command that resolves does so with a response of the shape that its kind yields. So the check that a
typed submission makes of its response never fails, and a session goes the same way whichever of its
submissions are typed.
-/

namespace Timeslice

variable {σ τ : Type} {T : Transport σ τ} {settings : Settings} {c : Command}

theorem CommandKind.Yields.shape {kind : CommandKind} {response r : Response}
    (h : kind.Yields response r) : r.shape = kind.shape := by
  cases h with
  | shaped shape => exact shape
  | noRows shape => exact shape.symm

namespace Command

theorem Ends.shape {a : Answer} {response : Response} (h : c.Ends settings a (.ok response)) :
    response.shape = c.kind.shape := by
  cases h with
  | yields _ yields => exact yields.shape
  | described | nothing => rfl

theorem shape_of_gathers (h : c.gathers = true) : c.kind.shape = .rows := by
  cases c with
  | query => rfl
  | createTable | store | fetch | delete | listKeys | describeTable => cases h

/-- No reply resolves a command with a response of another shape than its kind's. -/
theorem shape_of_receive {stage : Stage} {slot : Nat} {reply : Except Rejection Response}
    {response : Response} (hgathers : ∀ f, stage = .gathering f → c.gathers = true)
    (h : c.receive settings stage slot reply = .settled (.ok response)) :
    response.shape = c.kind.shape := by
  have hopened (h : c.receive settings .opened slot reply = .settled (.ok response)) :
      response.shape = c.kind.shape := by
    rcases c.receive_opened settings slot reply with
      ⟨outcome, hreceive, hends⟩ | ⟨schema, plan, -, -, hreceive⟩
    · rw [hreceive] at h
      cases h
      exact hends.shape
    · rw [hreceive] at h
      cases h
  cases stage with
  | unsent => exact hopened h
  | opened => exact hopened h
  | gathering f =>
    rw [shape_of_gathers (hgathers f rfl)]
    simp only [receive] at h
    split at h
    · cases h
    · split_ifs at h
      cases h
      rfl

theorem conclude_of_shape {outcome : Outcome}
    (h : ∀ response, outcome = .ok response → response.shape = c.kind.shape) (typed : Bool) :
    c.conclude typed outcome = c.conclude false outcome := by
  cases outcome with
  | error cause => rfl
  | ok response => simp [conclude, h response rfl]

end Command

namespace Turn

def Shaped (c : Command) (t : Turn σ τ) : Prop :=
  ∀ response, t.outcome = some (.ok response) → response.shape = c.kind.shape

variable {t : Turn σ τ} {slot : Nat}

theorem Shaped.hear (h : t.Shaped c) {slots : List Nat} (hhearing : t.stage.Hearing c slot slots)
    (taken : τ) : (t.hear T settings c slot taken).Shaped c := by
  unfold Turn.hear
  rcases T.answer t.state taken with ⟨state, answer⟩
  cases answer with
  | reply r =>
    have hgathers (f : Fanout) (hf : t.stage = .gathering f) : c.gathers = true := by
      rw [hf] at hhearing
      exact hhearing.1
    dsimp only [Turn.advance]
    split
    · exact h
    · next outcome hreceive =>
      intro response houtcome
      cases houtcome
      exact Command.shape_of_receive hgathers hreceive
  | silent => exact h
  | broken => rintro response ⟨⟩

theorem Shaped.send (h : t.Shaped c) {slots : List Nat} (hhearing : t.stage.Hearing c slot slots)
    (r : Request) : (t.send T settings c slot r).Shaped c := by
  unfold Turn.send
  rcases T.arrive t.state r with ⟨state, intake⟩
  dsimp only
  split_ifs
  · exact Shaped.hear (t := { t with state := state }) h hhearing intake.taken
  · exact h

end Turn

theorem Task.shaped_run (T : Transport σ τ) (settings : Settings) (state : σ) {task : Task τ}
    (h : task.Tidy c) : (task.run T settings c state).Shaped c := by
  suffices hboth : (task.run T settings c state).Tidy c ∧ (task.run T settings c state).Shaped c from
    hboth.2
  refine Task.run_induction (P := fun t => t.Tidy c ∧ t.Shaped c) ⟨h, by rintro response ⟨⟩⟩
    ?_ ?_ ?_ ?_
  · exact fun t slot f ht _ hf =>
      ⟨Turn.tidy_hear settings T (ht.1.land hf) f.taken,
        Turn.Shaped.hear (t := t.land slot) ht.2 (ht.1.land hf) f.taken⟩
  · exact fun t ht _ hstage =>
      ⟨Turn.tidy_send settings T (ht.1.opens hstage) _,
        Turn.Shaped.send (t := { t with stage := .opened }) ht.2 (ht.1.opens hstage) _⟩
  · exact fun t f slot piece f' ht _ hstage hsend =>
      ⟨Turn.tidy_send settings T (ht.1.sends hstage hsend) _,
        Turn.Shaped.send (t := { t with stage := .gathering f' }) ht.2 (ht.1.sends hstage hsend) _⟩
  · exact fun t ht _ => ⟨ht.1.landed _, ht.2⟩

def Submission.untyped (sub : Submission τ) : Submission τ :=
  { sub with typed := false }

namespace World

def untyped (w : World σ τ) : World σ τ :=
  { w with submissions := w.submissions.map Submission.untyped }

def Act.untyped : Act σ → Act σ
  | .submit c _ => .submit c false
  | act => act

def typeless (σ τ : Type) : View σ τ σ τ :=
  ⟨id, id, fun _ => false⟩

theorem task_typeless (task : Task τ) : (typeless σ τ).task task = task := by
  rw [View.task, typeless, List.map_id]

theorem world_typeless (w : World σ τ) : (typeless σ τ).world w = w.untyped := by
  have hsubmission (sub : Submission τ) :
      (typeless σ τ).submission sub = sub.untyped := by
    rw [View.submission, funext task_typeless, Option.map_id']
    rfl
  rw [View.world, funext hsubmission]
  rfl

theorem respects_typeless (T : Transport σ τ) : (typeless σ τ).Respects T T Task.Tidy where
  run settings c state task _ := by
    rw [task_typeless, View.turn, typeless, List.map_id]
    rfl
  conclude settings c state task outcome typed htidy houtcome :=
    (Command.conclude_of_shape (fun response hok => Task.shaped_run T settings state htidy response
      (houtcome.trans (congrArg some hok))) typed).symm
  abandon state flights := by
    rw [typeless, List.map_id]
    rfl

theorem shows_untyped (τ : Type) (act : Act σ) : (typeless σ τ).Shows act act.untyped := by
  cases act with
  | drift f => exact .drift fun _ => rfl
  | submit | turn | race | tearDown | expire | cancel | poll | wait | register | release | notify =>
    constructor

theorem standing_untyped (w : World σ τ) (ticket : Nat) :
    w.untyped.standing ticket = w.standing ticket := by
  rw [← world_typeless, View.standing_world]

/-- A run goes the same way if all submissions are untyped, and shows the same. -/
theorem untyped_run (T : Transport σ τ) {w : World σ τ} (h : w.Tasked Task.Tidy)
    (acts : List (Act σ)) :
    (w.run T acts).untyped = w.untyped.run T (acts.map Act.untyped) ∧
      w.untyped.observed T (acts.map Act.untyped) = w.observed T acts := by
  have hacts : List.Forall₂ (typeless σ τ).Shows acts (acts.map Act.untyped) :=
    List.forall₂_map_right_iff.mpr (List.forall₂_same.mpr fun act _ => shows_untyped τ act)
  rw [← world_typeless, ← world_typeless]
  exact (respects_typeless T).world_run (lasts_tidy T) h hacts

end World

end Timeslice
