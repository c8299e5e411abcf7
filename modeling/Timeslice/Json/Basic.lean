import Timeslice.Json.Number

/-!
# JSON values

A value as it stands in a text, with the fields of objects in their order and repeated fields kept.
The text of a string literal is `none` if one of its escapes is an unpaired surrogate: such a
literal is well-formed but stands for no text.
-/

namespace Timeslice

inductive Json where
  | null
  | bool (b : Bool)
  | number (n : JsonNumber)
  | string (s : Option String)
  | array (items : List Json)
  | object (fields : List (Option String × Json))

namespace Json

def ofInt (i : Int) : Json :=
  number (.ofInt i)

def ofNat (n : Nat) : Json :=
  ofInt n

def ofString (s : String) : Json :=
  string (some s)

def ofFields (fields : List (String × Json)) : Json :=
  object (fields.map fun f => (some f.1, f.2))

def toInt? : Json → Option Int
  | number n => n.toInt?
  | _ => none

def toBool? : Json → Option Bool
  | bool b => some b
  | _ => none

def toText? : Json → Option String
  | string s => s
  | _ => none

def toItems? : Json → Option (List Json)
  | array items => some items
  | _ => none

def toFields? : Json → Option (List (String × Json))
  | object fields => fields.mapM fun f => f.1.map fun name => (name, f.2)
  | _ => none

mutual

def depth : Json → Nat
  | array items => itemsDepth items + 1
  | object fields => fieldsDepth fields + 1
  | _ => 0

def itemsDepth : List Json → Nat
  | [] => 0
  | v :: rest => max v.depth (itemsDepth rest)

def fieldsDepth : List (Option String × Json) → Nat
  | [] => 0
  | (_, v) :: rest => max v.depth (fieldsDepth rest)

end

mutual

/-- Whether every string stands for a text and no number is estimated past the range of doubles. -/
def isMeaningful : Json → Bool
  | number n => !n.isTooLarge
  | string s => s.isSome
  | array items => itemsMeaningful items
  | object fields => fieldsMeaningful fields
  | _ => true

def itemsMeaningful : List Json → Bool
  | [] => true
  | v :: rest => v.isMeaningful && itemsMeaningful rest

def fieldsMeaningful : List (Option String × Json) → Bool
  | [] => true
  | (name, v) :: rest => name.isSome && v.isMeaningful && fieldsMeaningful rest

end

/-- The field of this name. The outer `none` says that it is repeated, the inner one that it is
absent. -/
def field? (fields : List (String × Json)) (name : String) : Option (Option Json) :=
  match fields.filter fun f => f.1 == name with
  | [] => some none
  | [f] => some (some f.2)
  | _ => none

end Json

end Timeslice
