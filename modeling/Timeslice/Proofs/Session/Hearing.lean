import Timeslice.Proofs.Session.Gathering

/-!
# Replies that come in are heard

The log of a turn only grows, and a flight that is woken has its answer in the log after the turn,
unless the fan-out has ended first.
-/

namespace Timeslice.Turn

open Fanout (inFlight)

variable {σ τ : Type} {settings : Settings} {c : Command} {plan : Plan} {k m : Nat} {table : String}
  {heard : List (Nat × ResultSet)}

theorem state_advance (t : Turn σ τ) (slot : Nat) (reply : Except Rejection Response) :
    (t.advance settings c slot reply).state = t.state := by
  unfold advance
  split <;> rfl

theorem state_hear (T : Transport σ τ) (t : Turn σ τ) (slot : Nat) (taken : τ) :
    (t.hear T settings c slot taken).state = (T.answer t.state taken).1 := by
  unfold hear
  rcases T.answer t.state taken with ⟨state, answer⟩
  cases answer with
  | reply r => exact state_advance _ slot r
  | silent | broken => rfl

variable {T : Transport σ τ} {t : Turn (σ × Log) (Nat × τ)}

theorem log_answer (s : σ × Log) (h : Nat × τ) : s.2 <+: (T.logged.answer s h).1.2 := by
  rcases hanswer : T.logged.answer s h with ⟨s', a⟩
  cases a with
  | silent =>
    exact (Transport.answer_logged_silent hanswer).symm ▸ List.prefix_refl _
  | broken | reply =>
    rw [Transport.answer_logged (by simp) hanswer]
    exact List.prefix_append _ _

theorem log_hear (slot : Nat) (taken : Nat × τ) :
    t.state.2 <+: (t.hear T.logged settings c slot taken).state.2 := by
  rw [state_hear]
  exact log_answer t.state taken

theorem log_send (slot : Nat) (r : Request) :
    t.state.2 <+: (t.send T.logged settings c slot r).state.2 := by
  rcases harrive : T.logged.arrive t.state r with ⟨s, intake⟩
  have hlog : t.state.2 <+: s.2 := by
    rw [(Transport.arrive_logged harrive).1]
    exact List.prefix_append _ _
  by_cases hdelay : intake.delay = 0
  · rw [send_atOnce c slot harrive hdelay]
    exact hlog.trans (log_hear (t := { t with state := s }) slot intake.taken)
  · rw [send_delayed c slot harrive hdelay]
    exact hlog

theorem log_wake (slot : Nat) : t.state.2 <+: (t.wake T.logged settings c slot).state.2 := by
  unfold wake
  split_ifs
  · exact List.prefix_refl _
  · split
    · exact List.prefix_refl _
    · next f _ => exact log_hear (t := t.land slot) slot f.taken

theorem log_launch (n : Nat) : t.state.2 <+: (launch T.logged settings c n t).state.2 := by
  refine launch_induction (P := fun t' : Turn (σ × Log) (Nat × τ) => t.state.2 <+: t'.state.2) ?_
    (List.prefix_refl _) n
  intro t' f slot piece f' ht _ _ _
  exact ht.trans (log_send (t := { t' with stage := .gathering f' }) slot ⟨c.table, .query piece⟩)

theorem log_close : t.state.2 <+: (t.close T.logged).state.2 := by
  unfold close
  split_ifs
  · simp only [Transport.abandonAll_logged]
    exact List.prefix_append _ _
  · exact List.prefix_refl _

def HasHeard (t : Turn (σ × Log) (Nat × τ)) (slot : Nat) : Prop :=
  slot ∈ t.state.2.answers.map (·.1)

theorem HasHeard.mono {t' : Turn (σ × Log) (Nat × τ)} {slot : Nat} (h : t.HasHeard slot)
    (hlog : t.state.2 <+: t'.state.2) : t'.HasHeard slot := by
  obtain ⟨rest, hrest⟩ := hlog
  unfold HasHeard at h ⊢
  rw [← hrest, Log.answers_append, List.map_append]
  exact List.mem_append_left _ h

theorem Hears.flights_subset {i : Nat} {taken : Nat × τ} {t' : Turn (σ × Log) (Nat × τ)}
    (h : Hears T.logged plan m heard i taken t t') : ∀ f ∈ t.flights, f ∈ t'.flights := by
  cases h with
  | silent => exact fun f hf => List.mem_append_left _ hf
  | broken | failed | last | next => exact fun f hf => hf

theorem hasHeard_wake (h : t.At plan m heard (inFlight m heard)) (hnumbered : t.Numbered)
    {f : Flight (Nat × τ)} (hf : f ∈ t.flights)
    (hanswers : ∀ s, (T.answer s f.taken.2).2 ≠ .silent) :
    (t.wake T.logged settings c f.slot).HasHeard f.slot := by
  rcases hanswer : T.logged.answer t.state f.taken with ⟨s, a⟩
  have ha : a ≠ .silent := by
    rintro rfl
    rcases hT : T.answer t.state.1 f.taken.2 with ⟨s', b⟩
    have hb := hanswers t.state.1
    rw [hT] at hb
    cases b <;> simp [Transport.logged, hT] at hanswer hb
  have hlog : (t.wake T.logged settings c f.slot).state.2 =
      t.state.2 ++ [.answered f.taken.1 a] := by
    have hland : (t.land f.slot).state = t.state := rfl
    rw [h.wake_eq_hear hf, state_hear, hland, hanswer]
    exact Transport.answer_logged ha hanswer
  unfold HasHeard
  rw [hlog, Log.answers_append, List.map_append, hnumbered f hf]
  simp [Log.answers]

variable (settings c) in
theorem hasHeard_wakeAll (h : t.Status k table plan) {f : Flight (Nat × τ)}
    (hf : t.outcome = none → f ∈ t.flights ∨ t.HasHeard f.slot)
    (hanswers : ∀ s, (T.answer s f.taken.2).2 ≠ .silent) (woken : List Nat)
    (hwoken : f.slot ∈ woken ∨ (t.outcome = none → t.HasHeard f.slot))
    (houtcome : (woken.foldl (Turn.wake T.logged settings c) t).outcome = none) :
    (woken.foldl (Turn.wake T.logged settings c) t).HasHeard f.slot := by
  induction woken generalizing t with
  | nil => exact (hwoken.resolve_left (by simp)) houtcome
  | cons slot rest ih =>
    rw [List.foldl_cons] at houtcome ⊢
    by_cases hended : t.outcome.isSome = true
    · rw [wake_eq_self hended] at houtcome ⊢
      refine ih h hf ?_ houtcome
      exact .inr fun hnone => by rw [hnone] at hended; cases hended
    · have hnone : t.outcome = none := by simpa using hended
      obtain ⟨m, heard, hat, hchronicle, hnumbered⟩ := h.exists_at hnone
      have hmono : t.HasHeard f.slot → (t.wake T.logged settings c slot).HasHeard f.slot :=
        fun hheard => hheard.mono (log_wake slot)
      have hkeep : f ∈ t.flights →
          f ∈ (t.wake T.logged settings c slot).flights ∨
            (t.wake T.logged settings c slot).HasHeard f.slot := by
        intro hmem
        by_cases hslot : f.slot = slot
        · rw [← hslot]
          exact .inr (hasHeard_wake hat hnumbered hmem hanswers)
        · rcases wake_cases T.logged settings c hat slot with
            hsame | ⟨g, hg, -, -, hhears⟩
          · rw [hsame]
            exact .inl hmem
          · refine .inl (hhears.flights_subset f (List.mem_filter.mpr ⟨hmem, ?_⟩))
            simpa using hslot
      refine ih (h.wake slot) (fun _ => ?_) ?_ houtcome
      · rcases hf hnone with hmem | hheard
        · exact hkeep hmem
        · exact .inr (hmono hheard)
      · rcases hwoken with hwoken | hheard
        · rcases List.mem_cons.mp hwoken with rfl | hwoken
          · refine .inr fun _ => ?_
            rcases hf hnone with hmem | hheard
            · exact hasHeard_wake hat hnumbered hmem hanswers
            · exact hmono hheard
          · exact .inl hwoken
        · exact .inr fun _ => hmono (hheard hnone)

end Timeslice.Turn
