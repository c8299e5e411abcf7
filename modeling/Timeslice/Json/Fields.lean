import Timeslice.Json.Basic
import Timeslice.Number.Word

/-!
# Taking values out of JSON objects

Fields that must be there, fields that may be missing, and words of fixed width.
-/

namespace Timeslice

namespace Json

def required? (fields : List (String × Json)) (name : String) : Option Json :=
  (field? fields name).bind id

/-- A field that may be missing or `null`. The outer `none` says that the field is refused. -/
def optional? {α : Type} (decode : Json → Option α) (fields : List (String × Json))
    (name : String) : Option (Option α) :=
  (field? fields name).bind fun
    | none | some null => some none
    | some v => (decode v).map some

def unsigned32? (v : Json) : Option UInt32 :=
  v.toInt?.bind Word.unsigned32?

def unsigned64? (v : Json) : Option UInt64 :=
  v.toInt?.bind Word.unsigned64?

def signed64? (v : Json) : Option Int64 :=
  v.toInt?.bind Word.signed64?

/-- The single name in an object that gives it nothing. -/
def loneName? : Json → Option String
  | object [(some name, null)] => some name
  | _ => none

end Json

end Timeslice
