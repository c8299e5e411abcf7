import Mathlib.Data.List.Basic

/-!
# Lists taken apart by number

Each element of a list has a number, and the list is filtered once for each number of a range, by a
test of its own. The filtered lists together are the list again, ordered by number first.
-/

namespace Timeslice

variable {α β : Type} {number : α → Int} {passes : β → α → Bool} {first : Int}

/-- The tests pick out the elements with the numbers from `first` on, one number each. -/
def Separates (number : α → Int) (passes : β → α → Bool) (first : Int) (tests : List β)
    (l : List α) : Prop :=
  ∀ (i : Nat) (h : i < tests.length), ∀ a ∈ l, passes tests[i] a = true ↔ number a = first + i

theorem Separates.head {test : β} {tests : List β} {l : List α}
    (h : Separates number passes first (test :: tests) l) {a : α} (ha : a ∈ l) :
    passes test a = true ↔ number a = first := by
  have := h 0 (by simp) a ha
  simpa using this

theorem Separates.tail {test : β} {tests : List β} {l : List α}
    (h : Separates number passes first (test :: tests) l) :
    Separates number passes (first + 1) tests l := by
  intro i hi a ha
  have := h (i + 1) (by simpa using hi) a ha
  rw [List.getElem_cons_succ] at this
  rw [this]
  omega

theorem Separates.sublist {tests : List β} {l l' : List α}
    (h : Separates number passes first tests l) (hl : ∀ a ∈ l', a ∈ l) :
    Separates number passes first tests l' :=
  fun i hi a ha => h i hi a (hl a ha)

theorem flatMap_filter_perm {tests : List β} {l : List α}
    (h : Separates number passes first tests l)
    (hall : ∀ a ∈ l, first ≤ number a ∧ number a < first + tests.length) :
    (tests.flatMap fun test => l.filter (passes test)).Perm l := by
  induction tests generalizing first l with
  | nil =>
    have hnil : l = [] := by
      refine List.eq_nil_iff_forall_not_mem.mpr fun a ha => ?_
      have := hall a ha
      simp only [List.length_nil] at this
      omega
    rw [hnil]
    rfl
  | cons test tests ih =>
    have hmem : ∀ a ∈ l.filter (fun a => !passes test a), a ∈ l :=
      fun a ha => (List.mem_filter.mp ha).1
    have hrest : (tests.flatMap fun t => (l.filter fun a => !passes test a).filter (passes t)).Perm
        (l.filter fun a => !passes test a) := by
      refine ih (h.tail.sublist hmem) fun a ha => ?_
      have hhead := (h.head (hmem a ha)).not
      have hrange := hall a (hmem a ha)
      simp only [List.mem_filter, Bool.not_eq_true'] at ha
      simp only [ha.2, Bool.false_eq_true, not_false_eq_true, true_iff] at hhead
      simp only [List.length_cons] at hrange
      omega
    have hsame : ∀ t ∈ tests, (l.filter fun a => !passes test a).filter (passes t) =
        l.filter (passes t) := by
      intro t ht
      obtain ⟨i, hi, rfl⟩ := List.mem_iff_getElem.mp ht
      rw [List.filter_filter]
      refine List.filter_congr fun a ha => ?_
      have hpasses := h.tail i hi a ha
      have hhead := h.head ha
      cases htest : passes test a with
      | false => simp
      | true =>
        have hno : passes tests[i] a = false := by
          rw [Bool.eq_false_iff, Ne, hpasses]
          have := hhead.mp htest
          omega
        simp [hno]
    rw [List.flatMap_congr hsame] at hrest
    rw [List.flatMap_cons]
    exact (hrest.append_left _).trans (List.filter_append_perm (passes test) l)

def NumberedOrder (number : α → Int) (R : α → α → Prop) (a b : α) : Prop :=
  number a < number b ∨ number a = number b ∧ R a b

theorem pairwise_flatMap_filter {R : α → α → Prop} {tests : List β} {l : List α}
    (h : Separates number passes first tests l) (hl : l.Pairwise R) :
    (tests.flatMap fun test => l.filter (passes test)).Pairwise (NumberedOrder number R) := by
  induction tests generalizing first with
  | nil => exact .nil
  | cons test tests ih =>
    rw [List.flatMap_cons, List.pairwise_append]
    refine ⟨?_, ih h.tail, ?_⟩
    · refine (hl.filter (passes test)).imp_of_mem fun {a b} ha hb hab => ?_
      rw [List.mem_filter] at ha hb
      exact .inr ⟨by rw [(h.head ha.1).mp ha.2, (h.head hb.1).mp hb.2], hab⟩
    · intro a ha b hb
      obtain ⟨t, ht, hb⟩ := List.mem_flatMap.mp hb
      obtain ⟨i, hi, rfl⟩ := List.mem_iff_getElem.mp ht
      rw [List.mem_filter] at ha hb
      have hfirst := (h.head ha.1).mp ha.2
      have hlater := (h.tail i hi b hb.1).mp hb.2
      exact .inl (by omega)

end Timeslice
