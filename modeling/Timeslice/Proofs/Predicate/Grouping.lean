import Timeslice.Proofs.Predicate.Reading

/-!
# What reading back does to a predicate

Regrouping moves the operands of each chain of one connective to the left and does nothing else.
Neither the text nor the value of a predicate shows it.
-/

namespace Timeslice.Predicate

def isAnd : Predicate → Bool
  | and _ _ => true
  | _ => false

/-- No AND has an AND as its right operand, and no OR an OR. -/
def IsLeft : Predicate → Prop
  | compare _ => True
  | and left right => left.IsLeft ∧ right.IsLeft ∧ right.isAnd = false
  | or left right => left.IsLeft ∧ right.IsLeft ∧ right.isOr = false

/-- The second predicate is the first with operands moved to the left in chains of one
connective. -/
inductive Shifts : Predicate → Predicate → Prop where
  | refl (p : Predicate) : Shifts p p
  | trans {p q r : Predicate} : Shifts p q → Shifts q r → Shifts p r
  | and {p p' q q' : Predicate} : Shifts p p' → Shifts q q' → Shifts (.and p q) (.and p' q')
  | or {p p' q q' : Predicate} : Shifts p p' → Shifts q q' → Shifts (.or p q) (.or p' q')
  | and_left (p q r : Predicate) : Shifts (.and p (.and q r)) (.and (.and p q) r)
  | or_left (p q r : Predicate) : Shifts (.or p (.or q r)) (.or (.or p q) r)

/-- The second predicate is the first with every chain of one connective joined to the left. -/
structure LeftForm (p q : Predicate) : Prop where
  shifts : Shifts p q
  isLeft : q.IsLeft

variable {p q : Predicate}

theorem Shifts.isOr_eq (h : Shifts p q) : p.isOr = q.isOr := by
  induction h with
  | refl => rfl
  | trans _ _ ih ih' => exact ih.trans ih'
  | and | or | and_left | or_left => rfl

/-- Shifting moves no token, for the printer leaves out the parentheses of a chain. -/
theorem Shifts.chars_eq (h : Shifts p q) : p.chars = q.chars := by
  induction h with
  | refl => rfl
  | trans _ _ ih ih' => exact ih.trans ih'
  | and hp hq ihp ihq => rw [chars, chars, hp.isOr_eq, hq.isOr_eq, ihp, ihq]
  | or _ _ ihp ihq => rw [chars, chars, ihp, ihq]
  | and_left | or_left => simp [chars, isOr, List.append_assoc]

theorem Shifts.columns_eq (h : Shifts p q) : p.columns = q.columns := by
  induction h with
  | refl => rfl
  | trans _ _ ih ih' => exact ih.trans ih'
  | and _ _ ihp ihq | or _ _ ihp ihq => rw [columns, columns, ihp, ihq]
  | and_left | or_left => simp [columns]

theorem Shifts.evaluate_eq (columns : List Column) (row : Row) (h : Shifts p q) :
    p.evaluate columns row = q.evaluate columns row := by
  induction h with
  | refl => rfl
  | trans _ _ ih ih' => exact ih.trans ih'
  | and _ _ ihp ihq => rw [evaluate_and, evaluate_and, ihp, ihq]
  | or _ _ ihp ihq => rw [evaluate_or, evaluate_or, ihp, ihq]
  | and_left p q r => exact (evaluate_and_assoc columns row p q r).symm
  | or_left p q r => exact (evaluate_or_assoc columns row p q r).symm

theorem Shifts.conjoin (before : Option Predicate) (h : Shifts p q) :
    Shifts (conjoin before p) (conjoin before q) := by
  cases before with
  | none => exact h
  | some b => exact .and (.refl b) h

theorem Shifts.disjoin (before : Option Predicate) (h : Shifts p q) :
    Shifts (disjoin before p) (disjoin before q) := by
  cases before with
  | none => exact h
  | some b => exact .or (.refl b) h

theorem shifts_conjoin_and (before : Option Predicate) (p q : Predicate) :
    Shifts (Predicate.conjoin before (.and p q)) (.and (Predicate.conjoin before p) q) := by
  cases before with
  | none => exact .refl _
  | some b => exact .and_left b p q

theorem shifts_disjoin_or (before : Option Predicate) (p q : Predicate) :
    Shifts (Predicate.disjoin before (.or p q)) (.or (Predicate.disjoin before p) q) := by
  cases before with
  | none => exact .refl _
  | some b => exact .or_left b p q

/-- What the parser joins is what stands before a term and the term, shifted. -/
theorem shifts_regroup_joined (p : Predicate) : ∀ before,
    Shifts (Predicate.conjoin before p) (regroupAnd before p) ∧
      Shifts (Predicate.disjoin before p) (regroupOr before p) := by
  induction p with
  | compare c => exact fun before => ⟨.refl _, .refl _⟩
  | and left right ihl ihr =>
    have hand : ∀ before, Shifts (Predicate.conjoin before (.and left right))
        (regroupAnd before (.and left right)) := fun before =>
      (shifts_conjoin_and before left right).trans
        ((Shifts.and (ihl before).1 (.refl right)).trans (ihr (some (regroupAnd before left))).1)
    exact fun before => ⟨hand before, (hand none).disjoin before⟩
  | or left right ihl ihr =>
    have hor : ∀ before, Shifts (Predicate.disjoin before (.or left right))
        (regroupOr before (.or left right)) := fun before =>
      (shifts_disjoin_or before left right).trans
        ((Shifts.or (ihl before).2 (.refl right)).trans (ihr (some (regroupOr before left))).2)
    exact fun before => ⟨(hor none).conjoin before, hor before⟩

theorem isAnd_regroupAnd (before p : Predicate) : (regroupAnd (some before) p).isAnd = true := by
  induction p generalizing before with
  | compare | or => rfl
  | and left right _ ihr => exact ihr _

theorem isOr_regroupOr (before p : Predicate) : (regroupOr (some before) p).isOr = true := by
  induction p generalizing before with
  | compare | and => rfl
  | or left right _ ihr => exact ihr _

theorem isLeft_conjoin {before : Option Predicate} (hbefore : ∀ b ∈ before, b.IsLeft)
    (h : p.IsLeft) (hand : p.isAnd = false) : (Predicate.conjoin before p).IsLeft := by
  cases before with
  | none => exact h
  | some b => exact ⟨hbefore b rfl, h, hand⟩

theorem isLeft_disjoin {before : Option Predicate} (hbefore : ∀ b ∈ before, b.IsLeft)
    (h : p.IsLeft) (hor : p.isOr = false) : (Predicate.disjoin before p).IsLeft := by
  cases before with
  | none => exact h
  | some b => exact ⟨hbefore b rfl, h, hor⟩

theorem isOr_of_isAnd (h : p.isAnd = true) : p.isOr = false := by
  cases p <;> first | rfl | cases h

theorem isAnd_of_isOr (h : p.isOr = true) : p.isAnd = false := by
  cases p <;> first | rfl | cases h

theorem isLeft_regroup_joined (p : Predicate) : ∀ before : Option Predicate,
    (∀ b ∈ before, b.IsLeft) → (regroupAnd before p).IsLeft ∧ (regroupOr before p).IsLeft := by
  induction p with
  | compare c =>
    exact fun before hbefore => ⟨isLeft_conjoin hbefore trivial rfl, isLeft_disjoin hbefore trivial rfl⟩
  | and left right ihl ihr =>
    have hand : ∀ before : Option Predicate, (∀ b ∈ before, b.IsLeft) →
        (regroupAnd before (.and left right)).IsLeft := by
      intro before hbefore
      refine (ihr _ ?_).1
      rintro b ⟨⟩
      exact (ihl before hbefore).1
    exact fun before hbefore => ⟨hand before hbefore,
      isLeft_disjoin hbefore (hand none nofun) (isOr_of_isAnd (isAnd_regroupAnd _ _))⟩
  | or left right ihl ihr =>
    have hor : ∀ before : Option Predicate, (∀ b ∈ before, b.IsLeft) →
        (regroupOr before (.or left right)).IsLeft := by
      intro before hbefore
      refine (ihr _ ?_).2
      rintro b ⟨⟩
      exact (ihl before hbefore).2
    exact fun before hbefore => ⟨isLeft_conjoin hbefore (hor none nofun)
      (isAnd_of_isOr (isOr_regroupOr _ _)), hor before hbefore⟩

theorem leftForm_regroup (p : Predicate) : LeftForm p p.regroup :=
  ⟨(shifts_regroup_joined p none).2, (isLeft_regroup_joined p none nofun).2⟩

theorem IsLeft.regroup_joined (h : p.IsLeft) :
    regroupAnd none p = p ∧ regroupOr none p = p ∧
      (p.isAnd = false → ∀ before, regroupAnd before p = Predicate.conjoin before p) ∧
        (p.isOr = false → ∀ before, regroupOr before p = Predicate.disjoin before p) := by
  induction p with
  | compare c => exact ⟨rfl, rfl, fun _ _ => rfl, fun _ _ => rfl⟩
  | and left right ihl ihr =>
    obtain ⟨hleft, hright, hand⟩ := h
    have heq : regroupAnd none (.and left right) = .and left right := by
      rw [regroupAnd, (ihl hleft).1, (ihr hright).2.2.1 hand]
      rfl
    refine ⟨heq, heq, fun h => Bool.noConfusion h, fun _ before => ?_⟩
    exact congrArg (Predicate.disjoin before) heq
  | or left right ihl ihr =>
    obtain ⟨hleft, hright, hor⟩ := h
    have heq : regroupOr none (.or left right) = .or left right := by
      rw [regroupOr, (ihl hleft).2.1, (ihr hright).2.2.2 hor]
      rfl
    refine ⟨heq, heq, fun _ before => ?_, fun h => Bool.noConfusion h⟩
    exact congrArg (Predicate.conjoin before) heq

theorem regroup_eq_self_iff : p.regroup = p ↔ p.IsLeft := by
  refine ⟨fun h => ?_, fun h => h.regroup_joined.2.1⟩
  rw [← h]
  exact (leftForm_regroup p).isLeft

theorem Shifts.regroup_joined_eq (h : Shifts p q) : ∀ before,
    regroupAnd before p = regroupAnd before q ∧ regroupOr before p = regroupOr before q := by
  induction h with
  | refl => exact fun before => ⟨rfl, rfl⟩
  | trans _ _ ih ih' =>
    exact fun before => ⟨(ih before).1.trans (ih' before).1, (ih before).2.trans (ih' before).2⟩
  | and _ _ ihp ihq =>
    intro before
    simp only [regroupAnd, regroupOr, (ihp _).1, (ihq _).1, and_self]
  | or _ _ ihp ihq =>
    intro before
    simp only [regroupAnd, regroupOr, (ihp _).2, (ihq _).2, and_self]
  | and_left | or_left => exact fun before => ⟨by simp only [regroupAnd, regroupOr],
      by simp only [regroupAnd, regroupOr]⟩

/-- There is only one way to join all chains to the left. -/
theorem LeftForm.eq_regroup (h : LeftForm p q) : q = p.regroup := by
  rw [regroup, (h.shifts.regroup_joined_eq none).2]
  exact (regroup_eq_self_iff.mpr h.isLeft).symm

/-- A predicate that has been read is printed as a text that reads as its one left form: the
predicate itself exactly if it is one. Both have the same text, and the same value or fault on every
row. -/
theorem read_text_left_form {s : String} (h : read s = .ok p) (hfinite : p.IsFinite) :
    ∃ q, read p.text = .ok q ∧ LeftForm p q ∧ (∀ q', LeftForm p q' → q' = q) ∧
      (q = p ↔ p.IsLeft) ∧ q.text = p.text ∧
        ∀ columns row, q.evaluate columns row = p.evaluate columns row := by
  obtain ⟨ts, -, hts⟩ := Except.exists_of_bind h
  have hform := leftForm_regroup p
  refine ⟨p.regroup, read_text (isReadable_of_ofTokens hts) hfinite, hform,
    fun q' h' => h'.eq_regroup, regroup_eq_self_iff, ?_,
    fun columns row => (hform.shifts.evaluate_eq columns row).symm⟩
  rw [text, text, hform.shifts.chars_eq]

def chain : Predicate :=
  .and (.compare ⟨"a", .equal, .integer 1⟩)
    (.and (.compare ⟨"b c", .less, .decimal ⟨0x4004000000000000⟩⟩) (.compare ⟨"d", .equal, .text "x"⟩))

theorem read_chain : read "a = 1 AND (\"b c\" < 2.5 AND d = 'x')" = .ok chain := by
  decide +kernel

theorem read_text_left_form_chain :
    ∃ q, read chain.text = .ok q ∧ LeftForm chain q ∧ (∀ q', LeftForm chain q' → q' = q) ∧
      (q = chain ↔ chain.IsLeft) ∧ q.text = chain.text ∧
        ∀ columns row, q.evaluate columns row = chain.evaluate columns row :=
  read_text_left_form read_chain ⟨trivial, show Double.isFinite _ = true from by decide, trivial⟩

end Timeslice.Predicate
