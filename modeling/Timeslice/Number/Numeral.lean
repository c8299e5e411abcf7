/-!
# Decimal numerals

Natural numbers and integers in ASCII digits, written without leading zeros and read with them.
Main statement: a written numeral reads back as its number.
-/

namespace Timeslice.Numeral

def isDigit (c : Char) : Bool :=
  c.isDigit

def digitChar (n : Nat) : Char :=
  Char.ofNat (48 + n)

def digitValue (c : Char) : Nat :=
  c.toNat - 48

def digits (n : Nat) : List Char :=
  if n < 10 then [digitChar n] else digits (n / 10) ++ [digitChar (n % 10)]

def value (cs : List Char) : Nat :=
  cs.foldl (fun acc c => 10 * acc + digitValue c) 0

def integer (i : Int) : List Char :=
  if i < 0 then '-' :: digits i.natAbs else digits i.natAbs

def natText (n : Nat) : String :=
  String.ofList (digits n)

def intText (i : Int) : String :=
  String.ofList (integer i)

theorem digitValue_digitChar {n : Nat} (h : n < 10) : digitValue (digitChar n) = n := by
  have : ∀ m : Fin 10, digitValue (digitChar m.val) = m.val := by decide
  exact this ⟨n, h⟩

theorem isDigit_digitChar {n : Nat} (h : n < 10) : isDigit (digitChar n) = true := by
  have : ∀ m : Fin 10, isDigit (digitChar m.val) = true := by decide
  exact this ⟨n, h⟩

theorem value_append_singleton (cs : List Char) (c : Char) :
    value (cs ++ [c]) = 10 * value cs + digitValue c := by
  simp [value]

theorem value_digits (n : Nat) : value (digits n) = n := by
  induction n using Nat.strongRecOn with
  | ind n ih =>
    rw [digits]
    split
    · next h => simp [value, digitValue_digitChar h]
    · next h =>
      rw [value_append_singleton, ih (n / 10) (by omega),
        digitValue_digitChar (Nat.mod_lt _ (by decide))]
      omega

theorem isDigit_of_mem_digits {n : Nat} {c : Char} (h : c ∈ digits n) : isDigit c = true := by
  induction n using Nat.strongRecOn with
  | ind n ih =>
    rw [digits] at h
    split at h
    · next hn => simp only [List.mem_singleton] at h; subst h; exact isDigit_digitChar hn
    · next hn =>
      rcases List.mem_append.mp h with h | h
      · exact ih (n / 10) (by omega) h
      · simp only [List.mem_singleton] at h
        subst h
        exact isDigit_digitChar (Nat.mod_lt _ (by decide))

theorem digits_ne_nil (n : Nat) : digits n ≠ [] := by
  rw [digits]
  split <;> simp

theorem digits_starts (n : Nat) : ∃ c cs, digits n = c :: cs ∧ isDigit c = true := by
  obtain ⟨c, cs, hcs⟩ := List.exists_cons_of_ne_nil (digits_ne_nil n)
  have hmem : c ∈ digits n := by
    rw [hcs]
    exact List.mem_cons_self
  exact ⟨c, cs, hcs, isDigit_of_mem_digits hmem⟩

theorem span_isDigit {cs rest : List Char} (hcs : ∀ c ∈ cs, isDigit c = true)
    (hrest : ∀ c ∈ rest.head?, isDigit c = false) :
    (cs ++ rest).takeWhile isDigit = cs ∧ (cs ++ rest).dropWhile isDigit = rest := by
  rw [List.takeWhile_append_of_pos hcs, List.dropWhile_append_of_pos hcs]
  cases rest with
  | nil => simp
  | cons c rest => simp [hrest c rfl]

end Timeslice.Numeral
