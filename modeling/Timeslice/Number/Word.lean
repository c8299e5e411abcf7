import Timeslice.Number.Numeral

/-!
# Machine words

Timestamps and integer cells are 64-bit signed words, ordinals and intervals 32-bit unsigned ones,
and the sizes of the settings 64-bit unsigned ones. A number is taken as a word only if it fits.
-/

namespace Timeslice.Word

def signed64? (i : Int) : Option Int64 :=
  if Int64.minValue.toInt ≤ i ∧ i ≤ Int64.maxValue.toInt then some (Int64.ofInt i) else none

def unsigned32? (i : Int) : Option UInt32 :=
  if 0 ≤ i ∧ i < UInt32.size then some (UInt32.ofNat i.toNat) else none

def unsigned64? (i : Int) : Option UInt64 :=
  if 0 ≤ i ∧ i < UInt64.size then some (UInt64.ofNat i.toNat) else none

def next? (v : Int64) : Option Int64 :=
  signed64? (v.toInt + 1)

def text (v : Int64) : String :=
  Numeral.intText v.toInt

theorem toInt_of_signed64? {i : Int} {v : Int64} (h : signed64? i = some v) : v.toInt = i := by
  unfold signed64? at h
  split at h
  · next hi =>
    cases h
    exact Int64.toInt_ofInt_of_le hi.1 (Int.lt_of_le_of_lt hi.2 (by decide))
  · simp at h

theorem signed64?_toInt (v : Int64) : signed64? v.toInt = some v := by
  have hlow := v.minValue_le_toInt
  have hhigh := v.toInt_le
  rw [signed64?, if_pos ⟨hlow, hhigh⟩, Int64.ofInt_toInt]

theorem unsigned32?_toNat (n : UInt32) : unsigned32? n.toNat = some n := by
  have hlt := n.toNat_lt
  rw [unsigned32?, if_pos ⟨by omega, by simp only [UInt32.size]; omega⟩, Int.toNat_natCast,
    UInt32.ofNat_toNat]

theorem unsigned64?_toNat (n : UInt64) : unsigned64? n.toNat = some n := by
  have hlt := n.toNat_lt
  rw [unsigned64?, if_pos ⟨by omega, by simp only [UInt64.size]; omega⟩, Int.toNat_natCast,
    UInt64.ofNat_toNat]

end Timeslice.Word
