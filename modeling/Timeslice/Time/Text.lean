import Timeslice.Number.Word
import Timeslice.Text.Class
import Timeslice.Time.Calendar

/-!
# Date text

A quoted literal is a timestamp in one of three forms. The first is an internet timestamp with a
zone, `2024-01-15T10:30:00.250+01:00`, in which every field has its full width. The other two are a
date and a time in UTC, separated by blanks or by a `T`; there fields may be shorter, and blanks may
stand before each number.
-/

namespace Timeslice.DateText

abbrev Reader (α : Type) := List Char → Option (α × List Char)

/-- Between `least` and `most` digits. -/
def number (least most : Nat) : Reader Nat := fun cs =>
  let digits := (cs.take most).takeWhile Numeral.isDigit
  if digits.length < least then none else some (Numeral.value digits, cs.drop digits.length)

def char (c : Char) : Reader Unit
  | d :: rest => if d = c then some ((), rest) else none
  | [] => none

/-- The nanoseconds of a fraction, if one is written. Digits after the ninth are dropped. -/
def fraction : Reader Nat
  | '.' :: cs =>
    let digits := cs.takeWhile Numeral.isDigit
    let kept := digits.take 9
    if digits.isEmpty then none
    else some (Numeral.value kept * Nat.pow 10 (9 - kept.length), cs.dropWhile Numeral.isDigit)
  | cs => some (0, cs)

/-- A zone as minutes east of Greenwich: `Z`, or a sign, two digits for hours up to 23, a colon and
two digits for minutes up to 59. The minus sign may be the mathematical one. -/
def zone : Reader Int
  | 'Z' :: rest => some (0, rest)
  | 'z' :: rest => some (0, rest)
  | sign :: cs => do
    let negative ← if sign = '+' then some false
      else if sign = '-' || sign = '\u2212' then some true else none
    let (hours, cs) ← number 2 2 cs
    let ((), cs) ← char ':' cs
    let (minutes, cs) ← number 2 2 cs
    if hours ≤ 23 ∧ minutes ≤ 59 then
      let east : Int := hours * 60 + minutes
      some (if negative then -east else east, cs)
    else none
  | [] => none

def separator : Reader Unit
  | c :: rest => if c = 'T' || c = 't' || c = ' ' then some ((), rest) else none
  | [] => none

def zoned (cs : List Char) : Option Moment := do
  let (year, cs) ← number 4 4 cs
  let ((), cs) ← char '-' cs
  let (month, cs) ← number 2 2 cs
  let ((), cs) ← char '-' cs
  let (day, cs) ← number 2 2 cs
  let ((), cs) ← separator cs
  let (hour, cs) ← number 2 2 cs
  let ((), cs) ← char ':' cs
  let (minute, cs) ← number 2 2 cs
  let ((), cs) ← char ':' cs
  let (second, cs) ← number 2 2 cs
  let (nanos, cs) ← fraction cs
  let (east, cs) ← zone cs
  let wall ← Moment.ofCivil? ⟨year, month, day⟩ hour minute second nanos
  if cs.isEmpty then some { wall with seconds := wall.seconds - east * 60 } else none

/-- A year: at most four digits, or any number of them after a sign. -/
def looseYear : Reader Int := fun cs =>
  match Text.trimLeft cs with
  | '-' :: rest => (number 1 rest.length rest).map fun (n, rest) => (-(n : Int), rest)
  | '+' :: rest => (number 1 rest.length rest).map fun (n, rest) => ((n : Int), rest)
  | cs => (number 1 4 cs).map fun (n, rest) => ((n : Int), rest)

/-- One or two digits, with blanks allowed before them. -/
def looseField : Reader Nat := fun cs =>
  number 1 2 (Text.trimLeft cs)

/-- A date and a time in UTC, with `between` reading what stands between them. -/
def loose (between : Reader Unit) (cs : List Char) : Option Moment := do
  let (year, cs) ← looseYear cs
  let ((), cs) ← char '-' cs
  let (month, cs) ← looseField cs
  let ((), cs) ← char '-' cs
  let (day, cs) ← looseField cs
  let ((), cs) ← between cs
  let (hour, cs) ← looseField cs
  let ((), cs) ← char ':' cs
  let (minute, cs) ← looseField cs
  let ((), cs) ← char ':' cs
  let (second, cs) ← looseField cs
  let (nanos, cs) ← fraction cs
  let moment ← Moment.ofCivil? ⟨year, month, day⟩ hour minute second nanos
  if cs.isEmpty then some moment else none

def read (s : String) : Option Moment :=
  let cs := s.toList
  (zoned cs).or ((loose (fun cs => some ((), Text.trimLeft cs)) cs).or (loose (char 'T') cs))

def millis? (s : String) : Option Int64 :=
  (read s).map fun m => Int64.ofInt m.millis

end Timeslice.DateText
