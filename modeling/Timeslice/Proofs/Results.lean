/-!
# Results

What the result of a composed computation says of its parts.
-/

namespace Except

variable {ε ε' α β : Type}

theorem exists_of_bind {x : Except ε α} {f : α → Except ε β} {b : β} (h : x.bind f = .ok b) :
    ∃ a, x = .ok a ∧ f a = .ok b := by
  cases x with
  | error e => cases h
  | ok a => exact ⟨a, rfl, h⟩

theorem exists_of_map {x : Except ε α} {f : α → β} {b : β} (h : x.map f = .ok b) :
    ∃ a, x = .ok a ∧ f a = b := by
  cases x with
  | error e => cases h
  | ok a => exact ⟨a, rfl, Except.ok.inj h⟩

theorem eq_error_of_map {x : Except ε α} {f : α → β} {e : ε} (h : x.map f = .error e) :
    x = .error e := by
  cases x with
  | error e' => rw [Except.error.inj h]
  | ok a => cases h

theorem eq_ok_of_mapError {x : Except ε α} {f : ε → ε'} {a : α} (h : x.mapError f = .ok a) :
    x = .ok a := by
  cases x with
  | error e => cases h
  | ok b => rw [Except.ok.inj h]

theorem bind_eq_ok_congr {x y : Except ε α} {f : α → Except ε β} {b : β}
    (h : ∀ a, x = .ok a ↔ y = .ok a) : x.bind f = .ok b ↔ y.bind f = .ok b := by
  constructor
  · intro hx
    obtain ⟨a, ha, hb⟩ := exists_of_bind hx
    rw [(h a).mp ha]
    exact hb
  · intro hy
    obtain ⟨a, ha, hb⟩ := exists_of_bind hy
    rw [(h a).mpr ha]
    exact hb

theorem exists_error_iff {x : Except ε α} {P : α → Prop} (h : ∀ a, x = .ok a ↔ P a) :
    (∃ e, x = .error e) ↔ ∀ a, ¬P a := by
  cases x with
  | error e =>
    constructor
    · intro _ a ha
      cases (h a).mpr ha
    · exact fun _ => ⟨e, rfl⟩
  | ok a =>
    constructor
    · rintro ⟨e, he⟩
      cases he
    · exact fun hnone => absurd ((h a).mp rfl) (hnone a)

theorem eq_of_ok_iff {x : Except ε α} {P : α → Prop} (h : ∀ a, x = .ok a ↔ P a) {a b : α}
    (ha : P a) (hb : P b) : a = b :=
  Except.ok.inj (((h a).mpr ha).symm.trans ((h b).mpr hb))

end Except
