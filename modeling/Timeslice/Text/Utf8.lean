/-!
# UTF-8

Bytes are read as characters one sequence at a time. Where no sequence fits, the longest run that
starts one, or else a single byte, is taken as one flaw. Lossy reading puts U+FFFD in the place of
each flaw; strict reading fails on the first.
-/

namespace Timeslice

abbrev Bytes := List UInt8

namespace Utf8

def encode (s : String) : Bytes :=
  s.toUTF8.toList

/-- The bytes that may follow the first byte `a` of a sequence: how many there are, and the least
and the greatest value of the first of them. The others are in `80..BF`. -/
def follow (a : UInt8) : Option (Nat × UInt8 × UInt8) :=
  if a < 0x80 then some (0, 0, 0)
  else if a < 0xC2 then none
  else if a < 0xE0 then some (1, 0x80, 0xBF)
  else if a = 0xE0 then some (2, 0xA0, 0xBF)
  else if a = 0xED then some (2, 0x80, 0x9F)
  else if a < 0xF0 then some (2, 0x80, 0xBF)
  else if a = 0xF0 then some (3, 0x90, 0xBF)
  else if a < 0xF4 then some (3, 0x80, 0xBF)
  else if a = 0xF4 then some (3, 0x80, 0x8F)
  else none

/-- The payload of the first byte of a sequence with `n` more bytes. -/
def lead (n : Nat) (a : UInt8) : Nat :=
  match n with
  | 0 => a.toNat
  | 1 => a.toNat % 0x20
  | 2 => a.toNat % 0x10
  | _ => a.toNat % 0x08

/-- Takes up to `n` more bytes of a sequence, the first of them between `lo` and `hi`. A byte that
does not fit is left in the rest. -/
def tails : (n : Nat) → (lo hi : UInt8) → (point : Nat) → Bytes → Option Nat × Bytes
  | 0, _, _, point, rest => (some point, rest)
  | _ + 1, _, _, _, [] => (none, [])
  | n + 1, lo, hi, point, b :: rest =>
    if lo ≤ b ∧ b ≤ hi then tails n 0x80 0xBF (point * 0x40 + b.toNat % 0x40) rest
    else (none, b :: rest)

/-- The next character or flaw (`none`), and the bytes after it. -/
def next (a : UInt8) (rest : Bytes) : Option Char × Bytes :=
  match follow a with
  | none => (none, rest)
  | some (n, lo, hi) =>
    let (point, rest) := tails n lo hi (lead n a) rest
    (point.map Char.ofNat, rest)

theorem length_tails_le (n : Nat) (lo hi : UInt8) (point : Nat) (bs : Bytes) :
    (tails n lo hi point bs).2.length ≤ bs.length := by
  induction n generalizing lo hi point bs with
  | zero => simp [tails]
  | succ n ih =>
    cases bs with
    | nil => simp [tails]
    | cons b rest =>
      simp only [tails]
      split
      · exact Nat.le_succ_of_le (ih ..)
      · exact Nat.le_refl _

theorem length_next_le (a : UInt8) (rest : Bytes) : (next a rest).2.length ≤ rest.length := by
  unfold next
  split
  · exact Nat.le_refl _
  · exact length_tails_le ..

/-- The characters of the bytes, with `none` for each flaw. -/
def scan : Bytes → List (Option Char)
  | [] => []
  | a :: rest => (next a rest).1 :: scan (next a rest).2
termination_by bs => bs.length
decreasing_by exact Nat.lt_succ_of_le (length_next_le a rest)

def decodeLossy (bs : Bytes) : String :=
  String.ofList ((scan bs).map fun c => c.getD '\uFFFD')

def decode? (bs : Bytes) : Option String :=
  ((scan bs).mapM id).map String.ofList

end Utf8

end Timeslice
