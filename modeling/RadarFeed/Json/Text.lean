import RadarFeed.Json.Value
import RadarFeed.Text.Utf8
import RadarFeed.Text.Digits

/-!
Text in JSON.

`escapeChar` says how a character is written: a quote, a backslash and the characters below the
space are escaped, five of them by a letter, and all else stands for itself. `unescape` resolves
every escape that JSON has; a numeric escape of a surrogate counts only as the first half of a pair
that follows it immediately. What results must be UTF-8.
-/

namespace RadarFeed.Json

/-- How a character is written between quotes. -/
def escapeChar (c : Char) : List Char :=
  match c with
  | '"' => ['\\', '"']
  | '\\' => ['\\', '\\']
  | '\x08' => ['\\', 'b']
  | '\x0c' => ['\\', 'f']
  | '\n' => ['\\', 'n']
  | '\r' => ['\\', 'r']
  | '\t' => ['\\', 't']
  | c =>
    if c.toNat < 0x20 then
      ['\\', 'u', '0', '0', Text.nibble false (c.toNat / 16), Text.nibble false (c.toNat % 16)]
    else [c]

/-- The character that a letter behind a backslash stands for. -/
def shortEscape? (b : UInt8) : Option UInt8 :=
  match b with
  | 0x22 => some 0x22
  | 0x5C => some 0x5C
  | 0x2F => some 0x2F
  | 0x62 => some 0x08
  | 0x66 => some 0x0C
  | 0x6E => some 0x0A
  | 0x72 => some 0x0D
  | 0x74 => some 0x09
  | _ => none

/-- The value of a digit of base sixteen. -/
def hexValue (b : UInt8) : Nat :=
  if b ≤ 0x39 then b.toNat - 0x30
  else if b ≤ 0x46 then b.toNat - 0x41 + 10
  else b.toNat - 0x61 + 10

/-- The number that four digits of base sixteen stand for. -/
def unit16 (a b c d : UInt8) : Nat :=
  hexValue a * 4096 + hexValue b * 256 + hexValue c * 16 + hexValue d

/-- The first half of a surrogate pair. -/
def isLeading (n : Nat) : Bool :=
  0xD800 ≤ n && n < 0xDC00

/-- The second half of a surrogate pair. -/
def isTrailing (n : Nat) : Bool :=
  0xDC00 ≤ n && n < 0xE000

/-- The code point of a surrogate pair. -/
def pair (leading trailing : Nat) : Nat :=
  0x10000 + (leading - 0xD800) * 0x400 + (trailing - 0xDC00)

def codePointBytes (n : Nat) : Option (List UInt8) :=
  (Utf8.charOf n).map String.utf8EncodeChar

/-- Resolves the escapes of text as it is written. -/
def unescape : List UInt8 → Option (List UInt8)
  | [] => some []
  | 0x5C :: 0x75 :: a :: b :: c :: d :: s =>
    let n := unit16 a b c d
    if isTrailing n then none
    else if isLeading n then
      match s with
      | 0x5C :: 0x75 :: a :: b :: c :: d :: s =>
        let m := unit16 a b c d
        if isTrailing m then do
          let front ← codePointBytes (pair n m)
          return front ++ (← unescape s)
        else none
      | _ => none
    else do
      let front ← codePointBytes n
      return front ++ (← unescape s)
  | 0x5C :: b :: s => do
    let c ← shortEscape? b
    return c :: (← unescape s)
  | b :: s => do return b :: (← unescape s)

/-- The text that is written as `raw`. -/
def textOf? (raw : List UInt8) : Option String := do
  Utf8.text? (← unescape raw)

/-- How text is written between quotes. -/
def rawOf (s : String) : List UInt8 :=
  Utf8.encode (s.toList.flatMap escapeChar)

namespace Value

def ofText (s : String) : Value :=
  .text (rawOf s)

/-- An integer that is not negative. -/
def ofNat (n : Nat) : Value :=
  .number ⟨false, (Text.digits n).map fun c => c.toNat - 0x30, none, none⟩

def ofInt (n : Int) : Value :=
  .number ⟨n < 0, (Text.digits n.natAbs).map fun c => c.toNat - 0x30, none, none⟩

/-- An object. -/
def ofFields (fields : List (String × Value)) : Value :=
  .object (fields.map fun (name, v) => (rawOf name, v))

end Value

end RadarFeed.Json
