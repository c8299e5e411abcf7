import Timeslice.Proofs.Session.Following
import Timeslice.Proofs.Session.Hearing
import Timeslice.Proofs.Session.Logging

/-!
# No request of a task is lost

A task that has not opened has nothing in flight, one that has opened at most one request, and the
requests of a fan-out go by different slots. So every request that a turn finds in flight or sends is
in flight after it, or the log says that it has been answered or dropped.
-/

namespace Timeslice

variable {σ τ : Type} {settings : Settings} {c : Command} {stage stage' : Stage} {slot : Nat}
  {slots : List Nat}

namespace Stage

/-- The slots of the flights fit to the stage. -/
def Tidy (c : Command) (slots : List Nat) : Stage → Prop
  | .unsent => slots = []
  | .opened => slots.length ≤ 1
  | .gathering f => c.gathers = true ∧ (slots ++ f.unsent.map (·.1)).Nodup

def Hearing (c : Command) (slot : Nat) (slots : List Nat) : Stage → Prop
  | .unsent => False
  | .opened => slots = []
  | .gathering f => c.gathers = true ∧ (slot :: (slots ++ f.unsent.map (·.1))).Nodup

theorem Hearing.tidy (h : stage.Hearing c slot slots) : stage.Tidy c slots := by
  cases stage with
  | unsent => cases h
  | opened =>
    obtain rfl : slots = [] := h
    exact Nat.zero_le 1
  | gathering f => exact ⟨h.1, (List.nodup_cons.mp h.2).2⟩

theorem Hearing.tidy_append (h : stage.Hearing c slot slots) : stage.Tidy c (slots ++ [slot]) := by
  cases stage with
  | unsent => cases h
  | opened =>
    obtain rfl : slots = [] := h
    exact Nat.le_refl 1
  | gathering f =>
    refine ⟨h.1, ?_⟩
    rw [List.append_assoc, List.singleton_append]
    exact List.perm_middle.nodup_iff.mpr h.2

end Stage

theorem Fanout.nodup_unsent_ofPlan (plan : Plan) : ((ofPlan plan).unsent.map (·.1)).Nodup := by
  have hslots : (ofPlan plan).unsent.map (·.1) = List.range plan.pieces.length :=
    List.map_fst_zip (Nat.le_of_eq List.length_range)
  rw [hslots]
  exact List.nodup_range

/-- A command goes on only to gather, and what it has not sent stays so when a reply comes in. -/
theorem Command.receive_goesOn {reply : Except Rejection Response}
    (h : c.receive settings stage slot reply = .goesOn stage') :
    (c.gathers = true ∧ (∀ f, stage ≠ .gathering f) ∧
        ∃ plan, stage' = .gathering (.ofPlan plan)) ∨
      ∃ f f', stage = .gathering f ∧ stage' = .gathering f' ∧ f'.unsent = f.unsent := by
  have hopening (hstage : ∀ f, stage ≠ .gathering f) (response : Response)
      (h : c.afterOpening settings response = .goesOn stage') :
      c.gathers = true ∧ (∀ f, stage ≠ .gathering f) ∧
        ∃ plan, stage' = .gathering (.ofPlan plan) := by
    rcases c.afterOpening_cases settings response with ⟨outcome, heq, -⟩ | ⟨hgathers, plan, heq⟩
    · rw [heq] at h
      cases h
    · rw [heq] at h
      exact ⟨hgathers, hstage, plan, (Progress.goesOn.inj h).symm⟩
  cases stage with
  | gathering f =>
    simp only [receive] at h
    split at h
    · cases h
    · next f' hreceive =>
      obtain ⟨p, -, rfl⟩ := Except.exists_of_map hreceive
      split_ifs at h
      exact .inr ⟨f, _, rfl, (Progress.goesOn.inj h).symm, rfl⟩
  | unsent | opened =>
    cases reply with
    | error rejection => cases h
    | ok response => exact .inl (hopening (by rintro f ⟨⟩) response h)

namespace Turn

variable {T : Transport σ τ} {t : Turn σ τ}

def Tidy (c : Command) (t : Turn σ τ) : Prop :=
  t.stage.Tidy c (t.flights.map (·.slot))

theorem tidy_advance (h : t.stage.Hearing c slot (t.flights.map (·.slot)))
    (reply : Except Rejection Response) : (t.advance settings c slot reply).Tidy c := by
  unfold advance
  cases hreceive : c.receive settings t.stage slot reply with
  | settled outcome => exact h.tidy
  | goesOn stage =>
    dsimp only
    rcases Command.receive_goesOn hreceive with ⟨hgathers, hstage, plan, rfl⟩ | ⟨f, f', hf, rfl, hunsent⟩
    · refine ⟨hgathers, ?_⟩
      have hnil : t.flights.map (·.slot) = [] := by
        cases ht : t.stage with
        | gathering f => exact absurd ht (hstage f)
        | unsent | opened =>
          rw [ht] at h
          first | exact h | cases h
      rw [hnil]
      exact Fanout.nodup_unsent_ofPlan plan
    · have htidy := h.tidy
      rw [hf] at htidy
      exact ⟨htidy.1, hunsent ▸ htidy.2⟩

variable (T settings) in
theorem tidy_hear (h : t.stage.Hearing c slot (t.flights.map (·.slot))) (taken : τ) :
    (t.hear T settings c slot taken).Tidy c := by
  unfold hear
  rcases T.answer t.state taken with ⟨state, answer⟩
  cases answer with
  | reply r => exact tidy_advance (t := { t with state := state }) h r
  | silent =>
    rw [Tidy, List.map_append]
    exact h.tidy_append
  | broken => exact h.tidy

variable (T settings) in
theorem tidy_send (h : t.stage.Hearing c slot (t.flights.map (·.slot))) (r : Request) :
    (t.send T settings c slot r).Tidy c := by
  unfold send
  rcases T.arrive t.state r with ⟨state, intake⟩
  dsimp only
  split_ifs
  · exact tidy_hear settings T (t := { t with state := state }) h intake.taken
  · rw [Tidy, List.map_append]
    exact h.tidy_append

theorem Tidy.nodup (h : t.Tidy c) : (t.flights.map (·.slot)).Nodup := by
  unfold Tidy at h
  generalize t.flights.map (·.slot) = slots at h ⊢
  generalize t.stage = stage at h
  cases stage with
  | unsent =>
    obtain rfl : slots = [] := h
    exact List.nodup_nil
  | opened =>
    rcases slots with _ | ⟨slot, _ | ⟨other, rest⟩⟩
    · exact List.nodup_nil
    · exact List.nodup_singleton slot
    · exact absurd h (by simp [Stage.Tidy])
  | gathering f => exact (List.nodup_append.mp h.2).1

theorem Tidy.land (h : t.Tidy c) {f : Flight τ}
    (hf : t.flights.find? (fun f => f.slot == slot) = some f) :
    (t.land slot).stage.Hearing c slot ((t.land slot).flights.map (·.slot)) := by
  have hmem : slot ∈ t.flights.map (·.slot) := by
    have hslot := List.find?_some hf
    exact List.mem_map.mpr ⟨f, List.mem_of_find?_eq_some hf, beq_iff_eq.mp hslot⟩
  have hslots : (t.land slot).flights.map (·.slot) = (t.flights.map (·.slot)).erase slot := by
    rw [h.nodup.erase_eq_filter, Turn.land, List.filter_map]
    rfl
  have hstage : (t.land slot).stage = t.stage := rfl
  rw [hslots, hstage]
  unfold Tidy at h
  generalize t.flights.map (·.slot) = slots at h hmem ⊢
  generalize t.stage = stage at h ⊢
  cases stage with
  | unsent =>
    obtain rfl : slots = [] := h
    cases hmem
  | opened =>
    obtain ⟨other, rfl⟩ := List.length_eq_one_iff.mp
      (Nat.le_antisymm h (List.length_pos_of_mem hmem))
    obtain rfl := List.mem_singleton.mp hmem
    exact List.erase_cons_head slot []
  | gathering f =>
    refine ⟨h.1, ((List.perm_cons_erase hmem).append_right _).nodup_iff.mp h.2⟩

theorem Tidy.landed (h : t.Tidy c) (state : σ) :
    ({ t with state := state, flights := [] } : Turn σ τ).Tidy c := by
  unfold Tidy at h ⊢
  generalize t.stage = stage at h
  cases stage with
  | unsent => rfl
  | opened => exact Nat.zero_le 1
  | gathering f => exact ⟨h.1, (List.nodup_append.mp h.2).2.1⟩

theorem Tidy.opens (h : t.Tidy c) (hstage : t.stage = .unsent) :
    ({ t with stage := .opened } : Turn σ τ).stage.Hearing c 0 (t.flights.map (·.slot)) := by
  unfold Tidy at h
  rw [hstage] at h
  exact h

theorem Tidy.sends (h : t.Tidy c) {f f' : Fanout} {piece : Piece} {bound : Nat}
    (hstage : t.stage = .gathering f) (hsend : f.send? bound = some ((slot, piece), f')) :
    ({ t with stage := .gathering f' } : Turn σ τ).stage.Hearing c slot (t.flights.map (·.slot)) := by
  unfold Tidy at h
  rw [hstage] at h
  unfold Fanout.send? at hsend
  split at hsend
  · cases hsend
  · next rest hunsent =>
    split_ifs at hsend
    cases hsend
    obtain ⟨hgathers, hnodup⟩ := h
    rw [hunsent, List.map_cons] at hnodup
    exact ⟨hgathers, List.perm_middle.nodup_iff.mp hnodup⟩

end Turn

def Task.Tidy (c : Command) (task : Task τ) : Prop :=
  task.stage.Tidy c (task.flights.map (·.slot))

theorem Task.tidy_run (T : Transport σ τ) (settings : Settings) (state : σ) {task : Task τ}
    (h : task.Tidy c) : (task.run T settings c state).Tidy c :=
  Task.run_induction (P := Turn.Tidy c) h
    (fun _ _ f ht _ hf => Turn.tidy_hear settings T (ht.land hf) f.taken)
    (fun _ ht _ hstage => Turn.tidy_send settings T (ht.opens hstage) _)
    (fun _ _ _ _ _ ht _ hstage hsend => Turn.tidy_send settings T (ht.sends hstage hsend) _)
    fun _ ht _ => ht.landed _

theorem World.lasts_tidy (T : Transport σ τ) : World.Lasts T Task.Tidy where
  start _ := rfl
  turn settings _ state _ h := Task.tidy_run T settings state h
  wake _ _ _ h := h

variable {T : Transport σ τ}

/-- Nothing is in flight after a turn that ends its task. -/
theorem Task.flights_run (task : Task τ) (state : σ)
    (h : (task.run T settings c state).outcome.isSome = true) :
    (task.run T settings c state).flights = [] := by
  unfold Task.run Turn.close at h ⊢
  dsimp only at h ⊢
  split_ifs at h ⊢ with hsome
  · rfl
  · exact absurd h hsome

/-- A request has been answered or dropped. -/
def Log.Concluded (log : Log) (n : Nat) : Prop :=
  n ∈ log.answers.map (·.1) ∨ n ∈ log.drops

theorem Log.Concluded.mono {log log' : Log} {n : Nat} (h : log.Concluded n) (hlog : log <+: log') :
    log'.Concluded n := by
  obtain ⟨rest, rfl⟩ := hlog
  unfold Log.Concluded
  rw [Log.answers_append, Log.drops_append, List.map_append, List.mem_append, List.mem_append]
  exact h.imp .inl .inl

def Flight.numbers (flights : List (Flight (Nat × τ))) : List Nat :=
  flights.map (·.taken.1)

theorem Log.requests_dropped (numbers : List Nat) : requests (numbers.map .dropped) = [] := by
  rw [requests, List.filterMap_map]
  exact List.filterMap_eq_nil_iff.mpr fun _ _ => rfl

theorem Turn.abandonAll_numbers (s : σ × Log) (flights : List (Flight (Nat × τ))) :
    (abandonAll T.logged s flights).2 = s.2 ++ (Flight.numbers flights).map .dropped := by
  rw [Transport.abandonAll_logged, Flight.numbers, List.map_map]
  rfl

theorem Turn.concluded_abandonAll (s : σ × Log) {flights : List (Flight (Nat × τ))} {n : Nat}
    (h : n ∈ Flight.numbers flights) : (abandonAll T.logged s flights).2.Concluded n := by
  rw [abandonAll_numbers, Log.Concluded, Log.drops_append]
  exact .inr (List.mem_append_right _ (List.mem_filterMap.mpr ⟨_, List.mem_map_of_mem h, rfl⟩))

namespace Turn

variable {t : Turn (σ × Log) (Nat × τ)} {n : Nat}

def Accounts (t : Turn (σ × Log) (Nat × τ)) (n : Nat) : Prop :=
  n ∈ Flight.numbers t.flights ∨ t.state.2.Concluded n

theorem flights_advance (t : Turn (σ × Log) (Nat × τ)) (slot : Nat)
    (reply : Except Rejection Response) : (t.advance settings c slot reply).flights = t.flights := by
  unfold advance
  split <;> rfl

variable (settings c slot T) in
theorem accounts_hear {taken : Nat × τ} (h : n = taken.1 ∨ t.Accounts n) :
    (t.hear T.logged settings c slot taken).Accounts n := by
  unfold hear
  rcases hanswer : T.logged.answer t.state taken with ⟨s, a⟩
  have hanswered (ha : a ≠ .silent) : n ∈ Flight.numbers t.flights ∨ s.2.Concluded n := by
    have hlog := Transport.answer_logged ha hanswer
    rcases h with rfl | hflight | hconcluded
    · refine .inr (.inl ?_)
      rw [hlog, Log.answers_append, List.map_append]
      exact List.mem_append_right _ (List.mem_singleton_self taken.1)
    · exact .inl hflight
    · exact .inr (hconcluded.mono (hlog ▸ List.prefix_append _ _))
  cases a with
  | reply r =>
    dsimp only
    rw [Accounts, flights_advance, state_advance]
    exact hanswered (by rintro ⟨⟩)
  | broken => exact hanswered (by rintro ⟨⟩)
  | silent =>
    have hlog := Transport.answer_logged_silent hanswer
    rw [Accounts, Flight.numbers, List.map_append, List.mem_append, hlog]
    rcases h with rfl | hflight | hconcluded
    · exact .inl (.inr (List.mem_singleton_self taken.1))
    · exact .inl (.inl hflight)
    · exact .inr hconcluded

def next (t : Turn (σ × Log) (Nat × τ)) : Nat :=
  t.state.2.requests.length

theorem next_hear (taken : Nat × τ) : (t.hear T.logged settings c slot taken).next = t.next := by
  rw [next, state_hear]
  rcases hanswer : T.logged.answer t.state taken with ⟨s, a⟩
  by_cases ha : a = .silent
  · subst ha
    rw [Transport.answer_logged_silent hanswer]
    rfl
  · rw [Transport.answer_logged ha hanswer, Log.requests_append, List.length_append]
    rfl

variable (settings c slot T) in
theorem accounts_send (r : Request) (h : n = t.next ∨ t.Accounts n) :
    (t.send T.logged settings c slot r).Accounts n := by
  rcases harrive : T.logged.arrive t.state r with ⟨s, intake⟩
  obtain ⟨hlog, hnumber⟩ := Transport.arrive_logged harrive
  have harrived : n = intake.taken.1 ∨ ({ t with state := s } : Turn _ _).Accounts n := by
    rcases h with rfl | hflight | hconcluded
    · exact .inl hnumber.symm
    · exact .inr (.inl hflight)
    · exact .inr (.inr (hconcluded.mono (hlog ▸ List.prefix_append _ _)))
  by_cases hdelay : intake.delay = 0
  · rw [send_atOnce c slot harrive hdelay]
    exact accounts_hear settings c slot T (t := { t with state := s }) harrived
  · rw [send_delayed c slot harrive hdelay, Accounts, Flight.numbers, List.map_append,
      List.mem_append]
    rcases harrived with rfl | hflight | hconcluded
    · exact .inl (.inr (List.mem_singleton_self _))
    · exact .inl (.inl hflight)
    · exact .inr hconcluded

theorem next_send (r : Request) : (t.send T.logged settings c slot r).next = t.next + 1 := by
  rcases harrive : T.logged.arrive t.state r with ⟨s, intake⟩
  have hnext : s.2.requests.length = t.next + 1 := by
    rw [(Transport.arrive_logged harrive).1, Log.requests_append, List.length_append]
    rfl
  by_cases hdelay : intake.delay = 0
  · rw [send_atOnce c slot harrive hdelay, next_hear (t := { t with state := s })]
    exact hnext
  · rw [send_delayed c slot harrive hdelay]
    exact hnext

theorem accounts_wake (htidy : t.Tidy c) {f : Flight (Nat × τ)}
    (hf : t.flights.find? (fun f => f.slot == slot) = some f) (h : t.Accounts n) :
    ((t.land slot).hear T.logged settings c slot f.taken).Accounts n := by
  refine accounts_hear settings c slot T ?_
  rcases h with hflight | hconcluded
  · obtain ⟨g, hg, rfl⟩ := List.mem_map.mp hflight
    by_cases hslot : g.slot = slot
    · have hfslot := List.find?_some hf
      rw [List.inj_on_of_nodup_map htidy.nodup hg (List.mem_of_find?_eq_some hf)
        (hslot.trans (beq_iff_eq.mp hfslot).symm)]
      exact .inl rfl
    · exact .inr (.inl (List.mem_map_of_mem (List.mem_filter.mpr ⟨hg, by simpa using hslot⟩)))
  · exact .inr (.inr hconcluded)

/-- The turn of a tidy task, which accounts for these requests and all that have been sent on it. -/
structure Sound (c : Command) (first : Nat) (numbers : List Nat)
    (t : Turn (σ × Log) (Nat × τ)) : Prop where
  tidy : t.Tidy c
  accounts : ∀ n, n ∈ numbers ∨ first ≤ n ∧ n < t.next → t.Accounts n

variable {first : Nat} {numbers : List Nat}

variable (settings T) in
theorem Sound.send (h : t.Sound c first numbers) {stage : Stage}
    (hstage : stage.Hearing c slot (t.flights.map (·.slot))) (r : Request) :
    (({ t with stage := stage } : Turn _ _).send T.logged settings c slot r).Sound c first
      numbers := by
  refine ⟨tidy_send settings T.logged (t := { t with stage := stage }) hstage r, fun n hn => ?_⟩
  refine accounts_send settings c slot T (t := { t with stage := stage }) r ?_
  rw [next_send (t := { t with stage := stage })] at hn
  rcases hn with hnumber | ⟨hfirst, hlt⟩
  · exact .inr (h.accounts n (.inl hnumber))
  · rcases Nat.lt_succ_iff_lt_or_eq.mp hlt with hlt | heq
    · exact .inr (h.accounts n (.inr ⟨hfirst, hlt⟩))
    · exact .inl heq

theorem Sound.close (h : t.Sound c first numbers) :
    ({ t with state := abandonAll T.logged t.state t.flights, flights := [] } :
      Turn (σ × Log) (Nat × τ)).Sound c first numbers := by
  refine ⟨h.tidy.landed _, fun n hn => .inr ?_⟩
  have hnext : ({ t with state := abandonAll T.logged t.state t.flights, flights := [] } :
      Turn (σ × Log) (Nat × τ)).next = t.next := by
    rw [next, abandonAll_numbers, Log.requests_append, Log.requests_dropped]
    exact congrArg List.length (List.append_nil _)
  rw [hnext] at hn
  rcases h.accounts n hn with hflight | hconcluded
  · exact concluded_abandonAll t.state hflight
  · refine hconcluded.mono ?_
    rw [Transport.abandonAll_logged]
    exact List.prefix_append _ _

end Turn

/-- After a turn, each request that was in flight before it or has been sent on it is in flight or
concluded. -/
theorem Task.sound_run {task : Task (Nat × τ)} (h : task.Tidy c) (T : Transport σ τ)
    (settings : Settings) (s : σ × Log) :
    (task.run T.logged settings c s).Sound c s.2.requests.length
      (Flight.numbers task.flights) := by
  refine Task.run_induction ?_ ?_ ?_ ?_ ?_
  · refine ⟨h, fun n hn => hn.elim .inl fun hlt => ?_⟩
    exact absurd hlt.2 (Nat.not_lt.mpr hlt.1)
  · intro t slot f ht _ hf
    refine ⟨Turn.tidy_hear settings T.logged (ht.tidy.land hf) f.taken, fun n hn => ?_⟩
    rw [Turn.next_hear] at hn
    exact Turn.accounts_wake ht.tidy hf (ht.accounts n hn)
  · exact fun t ht _ hstage => ht.send settings T (ht.tidy.opens hstage) _
  · exact fun t _ _ _ _ ht _ hstage hsend => ht.send settings T (ht.tidy.sends hstage hsend) _
  · exact fun t ht _ => ht.close

end Timeslice
