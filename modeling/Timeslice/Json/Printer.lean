import Timeslice.Json.Basic
import Timeslice.Number.Numeral

/-!
# Writing JSON

Values are written without white space. Control characters, quotes and backslashes are escaped, all
other characters stand for themselves.
-/

namespace Timeslice.Json.Printer

def hexDigit (n : Nat) : Char :=
  if n < 10 then Char.ofNat (48 + n) else Char.ofNat (87 + n)

def escape (c : Char) : List Char :=
  if c = '"' then ['\\', '"']
  else if c = '\\' then ['\\', '\\']
  else if c = '\x08' then ['\\', 'b']
  else if c = '\x0C' then ['\\', 'f']
  else if c = '\n' then ['\\', 'n']
  else if c = '\r' then ['\\', 'r']
  else if c = '\t' then ['\\', 't']
  else if c < ' ' then ['\\', 'u', '0', '0', hexDigit (c.toNat / 16), hexDigit (c.toNat % 16)]
  else [c]

def literal (s : String) : List Char :=
  '"' :: (s.toList.flatMap escape ++ ['"'])

def number (n : JsonNumber) : List Char :=
  let sign := if n.negative then ['-'] else []
  let point := n.fraction.elim [] ('.' :: ·)
  let power := n.power.elim [] fun e => 'e' :: Numeral.integer e
  sign ++ n.whole ++ point ++ power

mutual

def value : Json → List Char
  | .null => "null".toList
  | .bool true => "true".toList
  | .bool false => "false".toList
  | .number n => number n
  | .string s => literal (s.getD "")
  | .array items => '[' :: (listed items ++ [']'])
  | .object fields => '{' :: (listedFields fields ++ ['}'])

def listed : List Json → List Char
  | [] => []
  | [v] => value v
  | v :: w :: rest => value v ++ ',' :: listed (w :: rest)

def listedFields : List (Option String × Json) → List Char
  | [] => []
  | [(name, v)] => literal (name.getD "") ++ ':' :: value v
  | (name, v) :: f :: rest =>
    literal (name.getD "") ++ ':' :: (value v ++ ',' :: listedFields (f :: rest))

end

end Printer

def write (v : Json) : String :=
  String.ofList (Printer.value v)

end Timeslice.Json
