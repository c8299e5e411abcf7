import Timeslice.Json.Basic
import Timeslice.Number.Numeral

/-!
# Reading JSON

The grammar is that of RFC 8259: nothing but white space may stand around the value.
-/

namespace Timeslice.Json.Reader

def isSpace (c : Char) : Bool :=
  c == ' ' || c == '\n' || c == '\t' || c == '\r'

def skip (cs : List Char) : List Char :=
  cs.dropWhile isSpace

def hexValue? (c : Char) : Option Nat :=
  if '0' ≤ c ∧ c ≤ '9' then some (c.toNat - 48)
  else if 'a' ≤ c ∧ c ≤ 'f' then some (c.toNat - 87)
  else if 'A' ≤ c ∧ c ≤ 'F' then some (c.toNat - 55)
  else none

def hexNumber? (cs : List Char) : Option Nat :=
  cs.foldlM (fun acc c => (hexValue? c).map (16 * acc + ·)) 0

/-- A part of a string literal: a character, or the 16-bit unit of a `\u` escape. -/
inductive Piece where
  | char (c : Char)
  | unit (u : Nat)

def simpleEscape? : Char → Option Char
  | '"' => some '"'
  | '\\' => some '\\'
  | '/' => some '/'
  | 'b' => some '\x08'
  | 'f' => some '\x0C'
  | 'n' => some '\n'
  | 'r' => some '\r'
  | 't' => some '\t'
  | _ => none

def pieces : List Char → Option (List Piece × List Char)
  | [] => none
  | '"' :: rest => some ([], rest)
  | '\\' :: 'u' :: a :: b :: c :: d :: rest => do
    let u ← hexNumber? [a, b, c, d]
    let (ps, rest) ← pieces rest
    some (.unit u :: ps, rest)
  | '\\' :: e :: rest => do
    let c ← simpleEscape? e
    let (ps, rest) ← pieces rest
    some (.char c :: ps, rest)
  | ['\\'] => none
  | c :: rest =>
    if c < ' ' then none
    else do
      let (ps, rest) ← pieces rest
      some (.char c :: ps, rest)

def isHigh (u : Nat) : Bool :=
  0xD800 ≤ u && u < 0xDC00

def isLow (u : Nat) : Bool :=
  0xDC00 ≤ u && u < 0xE000

def join : List Piece → Option (List Char)
  | [] => some []
  | .char c :: rest => (join rest).map (c :: ·)
  | .unit u :: .unit v :: rest =>
    if isHigh u && isLow v then
      (join rest).map (Char.ofNat (0x10000 + (u - 0xD800) * 0x400 + (v - 0xDC00)) :: ·)
    else if isHigh u || isLow u then none
    else (join (.unit v :: rest)).map (Char.ofNat u :: ·)
  | .unit u :: rest =>
    if isHigh u || isLow u then none else (join rest).map (Char.ofNat u :: ·)

def literal (cs : List Char) : Option (Option String × List Char) :=
  (pieces cs).map fun (ps, rest) => ((join ps).map String.ofList, rest)

def fraction : List Char → Option (Option (List Char) × List Char)
  | '.' :: rest =>
    let digits := rest.takeWhile Numeral.isDigit
    if digits.isEmpty then none else some (some digits, rest.dropWhile Numeral.isDigit)
  | cs => some (none, cs)

def unsignedPower (negative : Bool) (cs : List Char) : Option (Option Int × List Char) :=
  let digits := cs.takeWhile Numeral.isDigit
  let n : Int := Numeral.value digits
  if digits.isEmpty then none
  else some (some (if negative then -n else n), cs.dropWhile Numeral.isDigit)

def power : List Char → Option (Option Int × List Char)
  | e :: cs =>
    if e = 'e' || e = 'E' then
      match cs with
      | '-' :: rest => unsignedPower true rest
      | '+' :: rest => unsignedPower false rest
      | _ => unsignedPower false cs
    else some (none, e :: cs)
  | [] => some (none, [])

def unsignedNumber (negative : Bool) (cs : List Char) : Option (JsonNumber × List Char) := do
  let whole := cs.takeWhile Numeral.isDigit
  if whole.isEmpty || (whole.head? == some '0' && whole.length != 1) then none
  let (fraction, rest) ← fraction (cs.dropWhile Numeral.isDigit)
  let (power, rest) ← power rest
  some (⟨negative, whole, fraction, power⟩, rest)

def number : List Char → Option (JsonNumber × List Char)
  | '-' :: rest => unsignedNumber true rest
  | cs => unsignedNumber false cs

mutual

/-- The next value and the rest. Fuel bounds the calls; two for each character are enough. -/
def value : (fuel : Nat) → List Char → Option (Json × List Char)
  | 0, _ => none
  | fuel + 1, cs =>
    match skip cs with
    | 'n' :: 'u' :: 'l' :: 'l' :: rest => some (.null, rest)
    | 't' :: 'r' :: 'u' :: 'e' :: rest => some (.bool true, rest)
    | 'f' :: 'a' :: 'l' :: 's' :: 'e' :: rest => some (.bool false, rest)
    | '"' :: rest => (literal rest).map fun (s, rest) => (.string s, rest)
    | '[' :: rest =>
      match skip rest with
      | ']' :: rest => some (.array [], rest)
      | rest => (items fuel rest).map fun (vs, rest) => (.array vs, rest)
    | '{' :: rest =>
      match skip rest with
      | '}' :: rest => some (.object [], rest)
      | rest => (fields fuel rest).map fun (fs, rest) => (.object fs, rest)
    | cs => (number cs).map fun (n, rest) => (.number n, rest)

def items : (fuel : Nat) → List Char → Option (List Json × List Char)
  | 0, _ => none
  | fuel + 1, cs => do
    let (v, rest) ← value fuel cs
    match skip rest with
    | ',' :: rest =>
      let (vs, rest) ← items fuel rest
      some (v :: vs, rest)
    | ']' :: rest => some ([v], rest)
    | _ => none

def fields : (fuel : Nat) → List Char → Option (List (Option String × Json) × List Char)
  | 0, _ => none
  | fuel + 1, cs => do
    let (name, rest) ← match skip cs with
      | '"' :: rest => literal rest
      | _ => none
    let rest ← match skip rest with
      | ':' :: rest => some rest
      | _ => none
    let (v, rest) ← value fuel rest
    match skip rest with
    | ',' :: rest =>
      let (fs, rest) ← fields fuel rest
      some ((name, v) :: fs, rest)
    | '}' :: rest => some ([(name, v)], rest)
    | _ => none

end

end Reader

def read (s : String) : Option Json :=
  let cs := s.toList
  match Reader.value (2 * cs.length + 2) cs with
  | some (v, rest) => if (Reader.skip rest).isEmpty then some v else none
  | none => none

end Timeslice.Json
