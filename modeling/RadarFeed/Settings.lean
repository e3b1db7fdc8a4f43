import RadarFeed.Json.Field

/-!
The settings of a run, and their JSON form.

A missing field has the value of `Settings.default`; a reader of settings passes over fields that
it does not know. `Settings.write` writes all fields.
-/

namespace RadarFeed

open Json (Value)

/-- The settings of a run. -/
structure Settings where
  /-- Seconds until a source without news is asked again. -/
  retryIntervalSecs : Nat
  /-- The product whose source is asked for the list of products. -/
  defaultLevel3Product : String
  /-- The number of events that are kept for a slow reader. -/
  eventCapacity : Nat
deriving DecidableEq, Repr

namespace Settings

/-- The settings without a file. -/
def default : Settings :=
  ⟨15, "N0B", 64⟩

instance : Inhabited Settings := ⟨default⟩

/-- The names of the fields, in their order. -/
def fieldNames : List String :=
  ["retryIntervalSecs", "defaultLevel3Product", "eventCapacity"]

/-- Reads settings. -/
def ofJson (v : Value) : Option Settings := do
  match ← v.record? fieldNames with
  | [retry, product, capacity] =>
    let retry ← Value.withDefault default.retryIntervalSecs Value.word? retry
    let product ← Value.withDefault default.defaultLevel3Product Value.text? product
    let capacity ← Value.withDefault default.eventCapacity Value.word? capacity
    return ⟨retry, product, capacity⟩
  | _ => none

/-- Reads a file with settings. -/
def read (bytes : List UInt8) : Option Settings := do
  ofJson (← Value.read bytes)

def toJson (s : Settings) : Value :=
  Value.ofFields
    [("retryIntervalSecs", Value.ofNat s.retryIntervalSecs),
      ("defaultLevel3Product", Value.ofText s.defaultLevel3Product),
      ("eventCapacity", Value.ofNat s.eventCapacity)]

/-- The text of settings. -/
def write (s : Settings) : List UInt8 :=
  s.toJson.render

end Settings

end RadarFeed
