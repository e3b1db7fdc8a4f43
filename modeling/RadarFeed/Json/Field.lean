import RadarFeed.Json.Text

/-!
Typed reading of JSON values.

A record is an object, or an array of the values of its fields in their order. In an object a known
name may occur only once and unknown names are passed over, whatever their values; in an array the
last fields may be missing and nothing may follow them. Which missing fields have a default is for
the reader of the record to say: null is a value and never stands for a missing one. The name of a
choice is a text, or the one name in an object whose value is null.
-/

namespace RadarFeed.Json.Value

def text? : Value → Option String
  | .text raw => textOf? raw
  | _ => none

/-- The value of an integer of 64 bits that is not negative. -/
def word? : Value → Option Nat
  | .number l =>
    match l.number with
    | .natural n => some n
    | _ => none
  | _ => none

/-- The value of a number. -/
def float? : Value → Option Float
  | .number l => l.number.toFloat
  | _ => none

/-- The items of an array. -/
def items? : Value → Option (List Value)
  | .array items => some items
  | _ => none

/-- The fields of an object with their names. -/
def fields? : Value → Option (List (String × Value))
  | .object fields => fields.mapM fun (name, v) => (textOf? name).map fun name => (name, v)
  | _ => none

/-- The values of a name in an object. -/
def valuesOf (fields : List (String × Value)) (name : String) : List Value :=
  fields.filterMap fun f => if f.1 = name then some f.2 else none

/-- What an object holds under a name, which must not occur twice. -/
def single (fields : List (String × Value)) (name : String) : Option (Option Value) :=
  match valuesOf fields name with
  | [] => some none
  | [v] => some (some v)
  | _ => none

/-- The values of the fields `names` of a record, in the order of the names. -/
def record? (names : List String) : Value → Option (List (Option Value))
  | .array items =>
    if items.length ≤ names.length then
      some (items.map some ++ List.replicate (names.length - items.length) none)
    else none
  | v => do names.mapM (single (← v.fields?))

/-- The name of a choice. -/
def choice? : Value → Option String
  | .text raw => textOf? raw
  | .object [(name, .null)] => textOf? name
  | _ => none

/-- A field that must be there. -/
def required {α : Type} (read : Value → Option α) : Option Value → Option α
  | some v => read v
  | none => none

/-- A field that has a default. -/
def withDefault {α : Type} (default : α) (read : Value → Option α) : Option Value → Option α
  | some v => read v
  | none => some default

end RadarFeed.Json.Value
