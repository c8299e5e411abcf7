import Mathlib.Data.List.Basic
import Mathlib.Tactic.Common

/-!
# Joined clauses

Clauses are joined with a comma and a space. If none of them has a comma, they are known from the
joined text, and a text is known from its parts on both sides of the last occurrence of a character.
-/

namespace Timeslice

theorem split_last {a : Char} {xs ys xs' ys' : List Char} (h : xs ++ a :: ys = xs' ++ a :: ys')
    (hy : a ∉ ys) (hy' : a ∉ ys') : xs = xs' ∧ ys = ys' := by
  rcases List.append_eq_append_iff.mp h with ⟨as, rfl, has⟩ | ⟨as, rfl, has⟩
  · cases as with
    | nil => exact ⟨(List.append_nil xs).symm, (List.cons.inj has).2⟩
    | cons b as =>
      refine absurd ?_ hy
      rw [(List.cons.inj has).2]
      exact List.mem_append_right _ List.mem_cons_self
  · cases as with
    | nil => exact ⟨List.append_nil xs', (List.cons.inj has).2.symm⟩
    | cons b as =>
      refine absurd ?_ hy'
      rw [(List.cons.inj has).2]
      exact List.mem_append_right _ List.mem_cons_self

/-- Lists without repetitions that end the same list are the same if they begin alike. -/
theorem eq_of_append_eq_of_head? {α : Type} {xs ys ks ls : List α} (hks : ks.Nodup)
    (hls : ls.Nodup) (hne : ks ≠ []) (hhead : ks.head? = ls.head?) (h : xs ++ ks = ys ++ ls) :
    xs = ys ∧ ks = ls := by
  have hnone {as bs : List α} (hnodup : (as ++ bs).Nodup) (hbs : bs ≠ [])
      (hsame : (as ++ bs).head? = bs.head?) : as = [] := by
    cases as with
    | nil => rfl
    | cons a as =>
      have hmem : a ∈ bs := List.mem_of_head? hsame.symm
      exact absurd (List.mem_append_right as hmem) (List.nodup_cons.mp hnodup).1
  have hne' : ls ≠ [] := by
    rintro rfl
    exact hne (List.head?_eq_none_iff.mp hhead)
  rcases List.append_eq_append_iff.mp h with ⟨as, rfl, rfl⟩ | ⟨as, rfl, rfl⟩
  · obtain rfl := hnone hks hne' hhead
    exact ⟨(List.append_nil xs).symm, rfl⟩
  · obtain rfl := hnone hls hne hhead.symm
    exact ⟨List.append_nil ys, rfl⟩

namespace Clauses

variable {x y : List Char} {xs ys zs : List (List Char)}

def joined (xs : List (List Char)) : List Char :=
  [',', ' '].intercalate xs

theorem joined_singleton (x : List Char) : joined [x] = x :=
  List.intercalate_singleton

theorem joined_cons (x : List Char) (h : xs ≠ []) :
    joined (x :: xs) = x ++ ',' :: ' ' :: joined xs := by
  rw [joined, List.intercalate_cons_of_ne_nil h, List.append_assoc]
  rfl

theorem joined_append (hx : xs ≠ []) (hy : ys ≠ []) :
    joined (xs ++ ys) = joined xs ++ ',' :: ' ' :: joined ys := by
  induction xs with
  | nil => exact absurd rfl hx
  | cons x xs ih =>
    cases xs with
    | nil => rw [List.singleton_append, joined_cons x hy, joined_singleton]
    | cons x' xs =>
      have hrest : (x' :: xs) ++ ys ≠ [] := List.cons_ne_nil _ _
      rw [List.cons_append, joined_cons x hrest, ih (List.cons_ne_nil _ _),
        joined_cons x (List.cons_ne_nil x' xs), List.append_assoc]
      rfl

theorem joined_splice (xs : List (List Char)) (y : List Char) (a : Char) (hz : zs ≠ [])
    (ws : List (List Char)) :
    joined (xs ++ (y ++ a :: joined zs) :: ws) =
      joined (xs ++ [y]) ++ a :: joined (zs ++ ws) := by
  induction xs with
  | nil =>
    rw [List.nil_append, List.nil_append, joined_singleton]
    cases ws with
    | nil => rw [joined_singleton, List.append_nil]
    | cons w ws =>
      have hws : w :: ws ≠ [] := List.cons_ne_nil w ws
      rw [joined_cons _ hws, joined_append hz hws, List.append_assoc]
      rfl
  | cons x xs ih =>
    rw [List.cons_append, List.cons_append, joined_cons x (by simp), joined_cons x (by simp), ih,
      List.append_assoc]
    rfl

theorem joined_eq_intercalate (x : List Char) (xs : List (List Char)) :
    joined (x :: xs) = [','].intercalate (x :: xs.map (' ' :: ·)) := by
  induction xs generalizing x with
  | nil => rw [joined_singleton, List.map_nil, List.intercalate_singleton]
  | cons x' xs ih =>
    rw [joined_cons x (List.cons_ne_nil x' xs), ih, List.map_cons, List.intercalate_cons_cons,
      List.intercalate_cons_cons_left, List.append_assoc]
    rfl

/-- The text has none of the characters that set the parts of a definition apart. -/
def IsSeparable (x : List Char) : Prop :=
  ',' ∉ x ∧ '(' ∉ x

instance (x : List Char) : Decidable (IsSeparable x) :=
  inferInstanceAs (Decidable (_ ∧ _))

theorem IsSeparable.append (hx : IsSeparable x) (hy : IsSeparable y) : IsSeparable (x ++ y) := by
  simp only [IsSeparable, List.mem_append, not_or] at hx hy ⊢
  exact ⟨⟨hx.1, hy.1⟩, hx.2, hy.2⟩

def AreSeparable (xs : List (List Char)) : Prop :=
  ∀ x ∈ xs, IsSeparable x

theorem AreSeparable.append (hx : AreSeparable xs) (hy : AreSeparable ys) :
    AreSeparable (xs ++ ys) :=
  List.forall_mem_append.mpr ⟨hx, hy⟩

theorem AreSeparable.cons (hx : IsSeparable x) (h : AreSeparable xs) : AreSeparable (x :: xs) :=
  List.forall_mem_cons.mpr ⟨hx, h⟩

theorem areSeparable_singleton (hx : IsSeparable x) : AreSeparable [x] :=
  List.forall_mem_singleton.mpr hx

/-- Clauses that are separable can be told apart. -/
theorem AreSeparable.eq_of_joined_eq (hx : AreSeparable xs) (hy : AreSeparable ys) (hxs : xs ≠ [])
    (hys : ys ≠ []) (h : joined xs = joined ys) : xs = ys := by
  obtain ⟨x, xs, rfl⟩ := List.exists_cons_of_ne_nil hxs
  obtain ⟨y, ys, rfl⟩ := List.exists_cons_of_ne_nil hys
  have hfree {x : List Char} {xs : List (List Char)} (h : AreSeparable (x :: xs)) :
      ∀ z ∈ x :: xs.map (' ' :: ·), ',' ∉ z := by
    obtain ⟨hhead, hrest⟩ := List.forall_mem_cons.mp h
    refine List.forall_mem_cons.mpr ⟨hhead.1, fun z hz => ?_⟩
    obtain ⟨w, hw, rfl⟩ := List.mem_map.mp hz
    exact List.not_mem_cons_of_ne_of_not_mem (by decide) (hrest w hw).1
  rw [joined_eq_intercalate, joined_eq_intercalate] at h
  have hsplit := congrArg (List.splitOn ',') h
  rw [List.splitOn_intercalate ',' (hfree hx) (List.cons_ne_nil _ _),
    List.splitOn_intercalate ',' (hfree hy) (List.cons_ne_nil _ _), List.cons.injEq] at hsplit
  rw [hsplit.1, List.map_injective_iff.mpr List.cons_injective hsplit.2]

theorem AreSeparable.paren_notMem_joined (h : AreSeparable xs) : '(' ∉ joined xs := by
  induction xs with
  | nil => exact List.not_mem_nil
  | cons x xs ih =>
    obtain ⟨hhead, hrest⟩ := List.forall_mem_cons.mp h
    by_cases hxs : xs = []
    · rw [hxs, joined_singleton]
      exact hhead.2
    · rw [joined_cons x hxs]
      simp only [List.mem_append, List.mem_cons, not_or]
      exact ⟨hhead.2, by decide, by decide, ih hrest⟩

def closed (x : List Char) : List (List Char) → List (List Char)
  | [] => [x ++ [')']]
  | y :: rest => x :: closed y rest

theorem length_closed (x : List Char) (xs : List (List Char)) :
    (closed x xs).length = xs.length + 1 := by
  induction xs generalizing x with
  | nil => rfl
  | cons y rest ih => rw [closed, List.length_cons, ih, List.length_cons]

theorem closed_ne_nil (x : List Char) (xs : List (List Char)) : closed x xs ≠ [] := by
  cases xs <;> exact List.cons_ne_nil _ _

theorem joined_closed (x : List Char) (xs : List (List Char)) :
    joined (closed x xs) = joined (x :: xs) ++ [')'] := by
  induction xs generalizing x with
  | nil => rw [closed, joined_singleton, joined_singleton]
  | cons y rest ih =>
    rw [closed, joined_cons x (closed_ne_nil y rest), ih, joined_cons x (List.cons_ne_nil y rest),
      List.append_assoc]
    rfl

theorem joined_append_closed (xs : List (List Char)) (x : List Char) (ys : List (List Char)) :
    joined (xs ++ closed x ys) = joined (xs ++ x :: ys) ++ [')'] := by
  induction xs with
  | nil => exact joined_closed x ys
  | cons z xs ih =>
    rw [List.cons_append, List.cons_append, joined_cons z (by simp [closed_ne_nil]), ih,
      joined_cons z (by simp), List.append_assoc]
    rfl

theorem prefix_head_closed (x : List Char) (xs : List (List Char)) :
    ∃ y rest, closed x xs = (x ++ y) :: rest := by
  cases xs with
  | nil => exact ⟨_, _, rfl⟩
  | cons y rest => exact ⟨[], closed y rest, by rw [closed, List.append_nil]⟩

theorem AreSeparable.closed (h : AreSeparable (x :: xs)) : AreSeparable (closed x xs) := by
  induction xs generalizing x with
  | nil =>
    have hclose : IsSeparable [')'] := by decide
    exact areSeparable_singleton ((h x List.mem_cons_self).append hclose)
  | cons y rest ih =>
    obtain ⟨hhead, hrest⟩ := List.forall_mem_cons.mp h
    exact (ih hrest).cons hhead

end Clauses

end Timeslice
