import Timeslice.Json.Fields
import Timeslice.Json.Printer
import Timeslice.Json.Reader
import Timeslice.Text.Utf8

/-!
# Settings of a client

How many requests of one command may run at once, how many quanta one query may span, and where the
quantum grid starts. Settings are read from JSON, where a field that is missing has its default and
no other field is allowed; the array of the fields in order is read as well, and may end early.
-/

namespace Timeslice

structure Settings where
  concurrency : UInt64
  quantaLimit : UInt64
  origin : Int64
  deriving DecidableEq

/-- A bound that must be at least one. -/
inductive SettingsField where
  | concurrency
  | quantaLimit
  deriving DecidableEq

def SettingsField.name : SettingsField → String
  | concurrency => "max_concurrent_subrequests"
  | quantaLimit => "max_quanta_per_query"

inductive SettingsFault where
  | unreadable
  | malformed
  | zero (field : SettingsField)
  deriving DecidableEq

namespace Settings

def standard : Settings := ⟨8, 5000, 0⟩

def check (s : Settings) : Except SettingsFault Unit :=
  if s.concurrency = 0 then .error (.zero .concurrency)
  else if s.quantaLimit = 0 then .error (.zero .quantaLimit)
  else .ok ()

theorem one_le_concurrency {s : Settings} (h : s.check = .ok ()) : 1 ≤ s.concurrency.toNat := by
  unfold check at h
  split at h
  · cases h
  · next hzero =>
    exact Nat.one_le_iff_ne_zero.mpr fun hnat => hzero (UInt64.toNat_inj.mp hnat)

def originName : String := "quantum_origin_ms"

def fieldNames : List String :=
  [SettingsField.concurrency.name, SettingsField.quantaLimit.name, originName]

/-- A field that may be missing, but not `null`. -/
def defaulted? {α : Type} (decode : Json → Option α) (default : α) : Option Json → Option α
  | none => some default
  | some v => decode v

def ofParts? (concurrency quantaLimit origin : Option Json) : Option Settings := do
  return {
    concurrency := ← defaulted? Json.unsigned64? standard.concurrency concurrency
    quantaLimit := ← defaulted? Json.unsigned64? standard.quantaLimit quantaLimit
    origin := ← defaulted? Json.signed64? standard.origin origin }

def ofJson? : Json → Option Settings
  | .array items => if items.length ≤ 3 then ofParts? items[0]? items[1]? items[2]? else none
  | v => do
    let fields ← v.toFields?
    if !fields.all fun f => fieldNames.contains f.1 then none
    ofParts? (← Json.field? fields SettingsField.concurrency.name)
      (← Json.field? fields SettingsField.quantaLimit.name) (← Json.field? fields originName)

def toJson (s : Settings) : Json :=
  .ofFields [(SettingsField.concurrency.name, .ofNat s.concurrency.toNat),
    (SettingsField.quantaLimit.name, .ofNat s.quantaLimit.toNat),
    (originName, .ofInt s.origin.toInt)]

def write (s : Settings) : String :=
  s.toJson.write

def read (text : String) : Except SettingsFault Settings :=
  match (Json.read text).bind ofJson? with
  | none => .error .malformed
  | some s => s.check.map fun _ => s

def readBytes (bytes : Bytes) : Except SettingsFault Settings :=
  match Utf8.decode? bytes with
  | none => .error .unreadable
  | some text => read text

end Settings

def SettingsFault.message : SettingsFault → String
  | unreadable => "failed to read config file"
  | malformed => "failed to parse client config"
  | zero field => "invalid client config: " ++ field.name ++ " must be at least 1"

end Timeslice
