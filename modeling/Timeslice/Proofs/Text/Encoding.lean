import Mathlib.Tactic.Common
import Timeslice.Text.Utf8

/-!
# What is encoded is read back

The bytes of a text have no flaw: reading them gives the characters of the text, one for each
sequence.
-/

namespace Timeslice.Utf8

theorem toList_loop (bs : ByteArray) (i : Nat) (read : Bytes) :
    ByteArray.toList.loop bs i read = read.reverse ++ bs.data.toList.drop i := by
  fun_induction ByteArray.toList.loop bs i read with
  | case1 i read h ih =>
    have hlt : i < bs.data.toList.length := h
    have hbyte : bs.get! i = bs.data.toList[i] := by
      rw [Array.getElem_toList]
      exact getElem!_pos bs.data i h
    rw [ih, List.drop_eq_getElem_cons hlt, List.reverse_cons, List.append_assoc, hbyte,
      List.singleton_append]
  | case2 i read h =>
    have hle : bs.data.toList.length ≤ i := Nat.le_of_not_lt h
    rw [List.drop_eq_nil_of_le hle, List.append_nil]

theorem encode_eq (s : String) : encode s = s.toList.flatMap String.utf8EncodeChar := by
  rw [encode, ByteArray.toList, toList_loop, String.toUTF8_eq_toByteArray, ← String.utf8Encode_toList,
    List.utf8Encode, List.data_toByteArray]
  simp

theorem tails_succ {lo hi : UInt8} {x : Nat} (hlo : lo.toNat ≤ x % 64 + 128)
    (hhi : x % 64 + 128 ≤ hi.toNat) (n point : Nat) (rest : Bytes) :
    tails (n + 1) lo hi point (UInt8.ofNat (x % 64 + 128) :: rest) =
      tails n 0x80 0xBF (point * 64 + x % 64) rest := by
  have hbyte : (UInt8.ofNat (x % 64 + 128)).toNat = x % 64 + 128 :=
    UInt8.toNat_ofNat_of_lt' (show _ < 256 by omega)
  have hfits : lo ≤ UInt8.ofNat (x % 64 + 128) ∧ UInt8.ofNat (x % 64 + 128) ≤ hi := by
    rw [UInt8.le_iff_toNat_le, UInt8.le_iff_toNat_le, hbyte]
    exact ⟨hlo, hhi⟩
  have hpayload : (x % 64 + 128) % 0x40 = x % 64 := by omega
  rw [tails, if_pos hfits, hbyte, hpayload]

theorem tails_next (x n point : Nat) (rest : Bytes) :
    tails (n + 1) 0x80 0xBF point (UInt8.ofNat (x % 64 + 128) :: rest) =
      tails n 0x80 0xBF (point * 64 + x % 64) rest :=
  tails_succ (Nat.le_add_left _ _) (Nat.add_le_add_right (by omega) 128) n point rest

theorem follow_ofNat {x : Nat} (hx : x < 0x100) :
    follow (UInt8.ofNat x) =
      if x < 0x80 then some (0, 0, 0)
      else if x < 0xC2 then none
      else if x < 0xE0 then some (1, 0x80, 0xBF)
      else if x = 0xE0 then some (2, 0xA0, 0xBF)
      else if x = 0xED then some (2, 0x80, 0x9F)
      else if x < 0xF0 then some (2, 0x80, 0xBF)
      else if x = 0xF0 then some (3, 0x90, 0xBF)
      else if x < 0xF4 then some (3, 0x80, 0xBF)
      else if x = 0xF4 then some (3, 0x80, 0x8F)
      else none := by
  simp only [follow, UInt8.lt_iff_toNat_lt, ← UInt8.toNat_inj, UInt8.toNat_ofNat_of_lt' hx]
  rfl

theorem follow_three {v : Nat} (hlow : 0x7FF < v) (hhigh : v ≤ 0xFFFF)
    (hvalid : v < 0xD800 ∨ 0xDFFF < v) :
    ∃ lo hi, follow (UInt8.ofNat (v / 4096 % 16 + 224)) = some (2, lo, hi) ∧
      lo.toNat ≤ v / 64 % 64 + 128 ∧ v / 64 % 64 + 128 ≤ hi.toNat := by
  rw [follow_ofNat (by omega), if_neg (by omega), if_neg (by omega), if_neg (by omega)]
  by_cases hfirst : v / 4096 % 16 + 224 = 0xE0
  · exact ⟨0xA0, 0xBF, if_pos hfirst, by change 160 ≤ _; omega, by change _ ≤ 191; omega⟩
  rw [if_neg hfirst]
  by_cases hsurrogate : v / 4096 % 16 + 224 = 0xED
  · exact ⟨0x80, 0x9F, if_pos hsurrogate, by change 128 ≤ _; omega, by change _ ≤ 159; omega⟩
  · rw [if_neg hsurrogate]
    exact ⟨0x80, 0xBF, if_pos (by omega), by change 128 ≤ _; omega, by change _ ≤ 191; omega⟩

theorem follow_four {v : Nat} (hlow : 0xFFFF < v) (hhigh : v < 0x110000) :
    ∃ lo hi, follow (UInt8.ofNat (v / 262144 % 8 + 240)) = some (3, lo, hi) ∧
      lo.toNat ≤ v / 4096 % 64 + 128 ∧ v / 4096 % 64 + 128 ≤ hi.toNat := by
  rw [follow_ofNat (by omega), if_neg (by omega), if_neg (by omega), if_neg (by omega),
    if_neg (by omega), if_neg (by omega), if_neg (by omega)]
  by_cases hfirst : v / 262144 % 8 + 240 = 0xF0
  · exact ⟨0x90, 0xBF, if_pos hfirst, by change 144 ≤ _; omega, by change _ ≤ 191; omega⟩
  rw [if_neg hfirst]
  by_cases hmid : v / 262144 % 8 + 240 < 0xF4
  · exact ⟨0x80, 0xBF, if_pos hmid, by change 128 ≤ _; omega, by change _ ≤ 191; omega⟩
  · rw [if_neg hmid]
    exact ⟨0x80, 0x8F, if_pos (by omega), by change 128 ≤ _; omega, by change _ ≤ 143; omega⟩

theorem scan_cons {a : UInt8} {n : Nat} {lo hi : UInt8} {bytes rest : Bytes} {c : Char}
    (hfollow : follow a = some (n, lo, hi))
    (htails : tails n lo hi (lead n a) bytes = (some c.toNat, rest)) :
    scan (a :: bytes) = some c :: scan rest := by
  have hnext : next a bytes = (some c, rest) := by
    simp only [next, hfollow, htails, Option.map_some, Char.ofNat_toNat]
  rw [scan, hnext]

theorem scan_encodeChar (c : Char) (rest : Bytes) :
    scan (String.utf8EncodeChar c ++ rest) = some c :: scan rest := by
  set v := c.toNat
  have hvalid : v < 0xD800 ∨ 0xDFFF < v ∧ v < 0x110000 := c.valid
  have hencode : String.utf8EncodeChar c =
      if v ≤ 0x7F then [UInt8.ofNat v]
      else if v ≤ 0x7FF then [UInt8.ofNat (v / 64 % 32 + 192), UInt8.ofNat (v % 64 + 128)]
      else if v ≤ 0xFFFF then
        [UInt8.ofNat (v / 4096 % 16 + 224), UInt8.ofNat (v / 64 % 64 + 128),
          UInt8.ofNat (v % 64 + 128)]
      else
        [UInt8.ofNat (v / 262144 % 8 + 240), UInt8.ofNat (v / 4096 % 64 + 128),
          UInt8.ofNat (v / 64 % 64 + 128), UInt8.ofNat (v % 64 + 128)] := rfl
  rw [hencode]
  split_ifs with hone htwo hthree <;> simp only [List.cons_append, List.nil_append]
  · have hfollow : follow (UInt8.ofNat v) = some (0, 0, 0) := by
      rw [follow_ofNat (by omega), if_pos (by omega)]
    refine scan_cons hfollow ?_
    rw [tails, lead, UInt8.toNat_ofNat_of_lt' (show _ < 256 by omega)]
  · have hfollow : follow (UInt8.ofNat (v / 64 % 32 + 192)) = some (1, 0x80, 0xBF) := by
      rw [follow_ofNat (by omega), if_neg (by omega), if_neg (by omega), if_pos (by omega)]
    have hpoint : (v / 64 % 32 + 192) % 0x20 * 64 + v % 64 = v := by omega
    refine scan_cons hfollow ?_
    rw [tails_next, tails, lead, UInt8.toNat_ofNat_of_lt' (show _ < 256 by omega), hpoint]
  · obtain ⟨lo, hi, hfollow, hlo, hhi⟩ := follow_three (by omega) hthree (by omega)
    have hpoint : ((v / 4096 % 16 + 224) % 0x10 * 64 + v / 64 % 64) * 64 + v % 64 = v := by omega
    refine scan_cons hfollow ?_
    rw [tails_succ hlo hhi, tails_next, tails, lead,
      UInt8.toNat_ofNat_of_lt' (show _ < 256 by omega), hpoint]
  · obtain ⟨lo, hi, hfollow, hlo, hhi⟩ := follow_four (v := v) (by omega) (by omega)
    have hpoint : (((v / 262144 % 8 + 240) % 0x08 * 64 + v / 4096 % 64) * 64 + v / 64 % 64) * 64 +
        v % 64 = v := by omega
    have hlead (a : UInt8) : lead 3 a = a.toNat % 0x08 := rfl
    refine scan_cons hfollow ?_
    rw [tails_succ hlo hhi, tails_next, tails_next, tails, hlead,
      UInt8.toNat_ofNat_of_lt' (show _ < 256 by omega), hpoint]

theorem scan_encode (s : String) : scan (encode s) = s.toList.map some := by
  rw [encode_eq]
  induction s.toList with
  | nil => rw [List.flatMap_nil, scan, List.map_nil]
  | cons c rest ih => rw [List.flatMap_cons, scan_encodeChar, ih, List.map_cons]

/-- What is encoded has no flaw. -/
theorem decodeLossy_encode (s : String) : decodeLossy (encode s) = s := by
  rw [decodeLossy, scan_encode, List.map_map]
  have hread : ((fun c : Option Char => c.getD '\uFFFD') ∘ some) = id := rfl
  rw [hread, List.map_id, String.ofList_toList]

end Timeslice.Utf8
