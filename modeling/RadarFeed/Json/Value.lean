import RadarFeed.Json.Token

/-!
JSON values.

`Value.read` is a pushdown reader: it takes one token at a time and keeps the values that are still
open in a stack, so text may be nested to any depth. `Value.render` writes a value without blanks.
Text is held as it is written; `Value.ofText` and `Value.text?` go between it and characters.
-/

namespace RadarFeed.Json

open Decimal (Literal)

/-- A JSON value. The fields of an object come in the order in which they are written. -/
inductive Value where
  | null
  | bool (b : Bool)
  | number (l : Literal)
  /-- Text, as it is written between the quotes. -/
  | text (raw : List UInt8)
  | array (items : List Value)
  | object (fields : List (List UInt8 × Value))
deriving Inhabited

/-- A value that has been opened and not yet closed. What is complete of it comes backwards. -/
inductive Frame where
  | array (done : List Value)
  /-- An object in which the value of `name` is being read. -/
  | field (done : List (List UInt8 × Value)) (name : List UInt8)

/-- Where the reader is between two tokens. -/
inductive Reading where
  /-- A value follows. -/
  | value (stack : List Frame)
  /-- An array has been opened: a value or the end of the array follows. -/
  | firstItem (stack : List Frame)
  /-- An object has been opened: a name or the end of the object follows. -/
  | firstName (stack : List Frame)
  /-- A name follows. -/
  | name (done : List (List UInt8 × Value)) (stack : List Frame)
  /-- A colon follows. -/
  | colon (done : List (List UInt8 × Value)) (name : List UInt8) (stack : List Frame)
  /-- A value has been read. -/
  | after (v : Value) (stack : List Frame)

/-- The reader after a token that begins a value. -/
def Reading.begin (stack : List Frame) : Token → Option Reading
  | .openArray => some (.firstItem stack)
  | .openObject => some (.firstName stack)
  | .null => some (.after .null stack)
  | .bool b => some (.after (.bool b) stack)
  | .number l => some (.after (.number l) stack)
  | .text raw => some (.after (.text raw) stack)
  | _ => none

/-- The reader after one more token. -/
def Reading.step : Reading → Token → Option Reading
  | .value stack, t => Reading.begin stack t
  | .firstItem stack, t =>
    match t with
    | .closeArray => some (.after (.array []) stack)
    | t => Reading.begin (.array [] :: stack) t
  | .firstName stack, t =>
    match t with
    | .closeObject => some (.after (.object []) stack)
    | .text raw => some (.colon [] raw stack)
    | _ => none
  | .name done stack, t =>
    match t with
    | .text raw => some (.colon done raw stack)
    | _ => none
  | .colon done key stack, t =>
    match t with
    | .colon => some (.value (.field done key :: stack))
    | _ => none
  | .after v (.array done :: stack), t =>
    match t with
    | .comma => some (.value (.array (v :: done) :: stack))
    | .closeArray => some (.after (.array (v :: done).reverse) stack)
    | _ => none
  | .after v (.field done key :: stack), t =>
    match t with
    | .comma => some (.name ((key, v) :: done) stack)
    | .closeObject => some (.after (.object ((key, v) :: done).reverse) stack)
    | _ => none
  | .after _ [], _ => none

/-- The reader after some tokens. -/
def Reading.run (state : Reading) : List Token → Option Reading
  | [] => some state
  | t :: ts =>
    match state.step t with
    | some state => Reading.run state ts
    | none => none

namespace Value

/-- The value of tokens, if they make up exactly one. -/
def ofTokens (ts : List Token) : Option Value :=
  match Reading.run (.value []) ts with
  | some (.after v []) => some v
  | _ => none

/-- Reads JSON text: one value between blanks. -/
def read (s : List UInt8) : Option Value := do
  ofTokens (← Token.scan s)

/-- The digits of a literal part. -/
def digitBytes (s : List Nat) : List UInt8 :=
  s.map fun d => UInt8.ofNat (0x30 + d)

/-- A number as it is written. -/
def literalBytes (l : Literal) : List UInt8 :=
  (if l.negative then [0x2D] else []) ++ digitBytes l.whole ++
    (match l.fraction with
      | some run => 0x2E :: digitBytes run
      | none => []) ++
    (match l.exponent with
      | some (negative, run) => 0x65 :: (if negative then [0x2D] else []) ++ digitBytes run
      | none => [])

mutual

/-- The text of a value, in front of `rest`. -/
def renderOnto (rest : List UInt8) : Value → List UInt8
  | .null => "null".toUTF8.toList ++ rest
  | .bool b => (if b then "true" else "false").toUTF8.toList ++ rest
  | .number l => literalBytes l ++ rest
  | .text raw => 0x22 :: raw ++ 0x22 :: rest
  | .array [] => 0x5B :: 0x5D :: rest
  | .array (v :: vs) => 0x5B :: renderOnto (renderItems (0x5D :: rest) vs) v
  | .object [] => 0x7B :: 0x7D :: rest
  | .object ((name, v) :: fs) =>
    0x7B :: 0x22 :: name ++ 0x22 :: 0x3A :: renderOnto (renderFields (0x7D :: rest) fs) v

/-- The text of the later items of an array, each behind a comma, in front of `rest`. -/
def renderItems (rest : List UInt8) : List Value → List UInt8
  | [] => rest
  | v :: vs => 0x2C :: renderOnto (renderItems rest vs) v

/-- The text of the later fields of an object, each behind a comma, in front of `rest`. -/
def renderFields (rest : List UInt8) : List (List UInt8 × Value) → List UInt8
  | [] => rest
  | (name, v) :: fs =>
    0x2C :: 0x22 :: name ++ 0x22 :: 0x3A :: renderOnto (renderFields rest fs) v

end

/-- The text of a value, without blanks. -/
def render (v : Value) : List UInt8 :=
  renderOnto [] v

end Value

end RadarFeed.Json
