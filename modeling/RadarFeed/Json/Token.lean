import RadarFeed.Decimal.Literal

/-!
The tokens of JSON text.

`Token.scan` cuts bytes into tokens, one byte at a time. Text is kept as it is written: its escapes
are checked for their form and resolved only where the text is needed, so text that nobody asks for
may hold any bytes. Numbers and the three words are runs of the characters that occur in them, read
once the run has ended.
-/

namespace RadarFeed.Json

open Decimal (Literal)

inductive Token where
  | openObject
  | closeObject
  | openArray
  | closeArray
  | comma
  | colon
  | null
  | bool (b : Bool)
  | number (l : Literal)
  /-- Text, as it is written between the quotes. -/
  | text (raw : List UInt8)
deriving DecidableEq, Repr

/-- The value of an ASCII digit. -/
def digit? (b : UInt8) : Option Nat :=
  if 0x30 ≤ b && b ≤ 0x39 then some (b.toNat - 0x30) else none

/-- A digit of base sixteen. -/
def isHexDigit (b : UInt8) : Bool :=
  (0x30 ≤ b && b ≤ 0x39) || (0x41 ≤ b && b ≤ 0x46) || (0x61 ≤ b && b ≤ 0x66)

/-- The digits at the start of `s` and what follows them. -/
def digitRun : List UInt8 → List Nat × List UInt8
  | [] => ([], [])
  | b :: s =>
    match digit? b with
    | some d => let (run, rest) := digitRun s; (d :: run, rest)
    | none => ([], b :: s)

/-- Reads an exponent from what follows its letter, up to the end. -/
def exponent? (s : List UInt8) : Option (Bool × List Nat) :=
  let (negative, s) := match s with
    | 0x2D :: s => (true, s)
    | 0x2B :: s => (false, s)
    | s => (false, s)
  match digitRun s with
  | (d :: run, []) => some (negative, d :: run)
  | _ => none

/-- Reads the part of a number behind its whole digits: a fraction, an exponent, both or none. -/
def tail? (negative : Bool) (whole : List Nat) (s : List UInt8) : Option Literal :=
  match s with
  | [] => some ⟨negative, whole, none, none⟩
  | b :: s =>
    if b = 0x65 ∨ b = 0x45 then
      (exponent? s).map fun e => ⟨negative, whole, none, some e⟩
    else if b = 0x2E then
      match digitRun s with
      | ([], _) => none
      | (run, []) => some ⟨negative, whole, some run, none⟩
      | (run, c :: s) =>
        if c = 0x65 ∨ c = 0x45 then
          (exponent? s).map fun e => ⟨negative, whole, some run, some e⟩
        else none
    else none

/-- Reads a whole run as a number. A zero is not followed by further digits. -/
def literal? (s : List UInt8) : Option Literal :=
  let (negative, s) := match s with
    | 0x2D :: s => (true, s)
    | s => (false, s)
  match digitRun s with
  | ([], _) => none
  | (0 :: _ :: _, _) => none
  | (whole, s) => tail? negative whole s

/-- Reads a whole run as a word or a number. -/
def word? (s : List UInt8) : Option Token :=
  if s = "null".toUTF8.toList then some .null
  else if s = "true".toUTF8.toList then some (.bool true)
  else if s = "false".toUTF8.toList then some (.bool false)
  else (literal? s).map .number

/-- A character of a word or a number. -/
def isWordByte (b : UInt8) : Bool :=
  (0x30 ≤ b && b ≤ 0x39) || (0x61 ≤ b && b ≤ 0x7A) || (0x41 ≤ b && b ≤ 0x5A) ||
    b = 0x2B || b = 0x2D || b = 0x2E

/-- The blanks of JSON: space, tabulator and the ends of lines. -/
def isSpace (b : UInt8) : Bool :=
  b = 0x20 || b = 0x09 || b = 0x0A || b = 0x0D

/-- The token of a punctuation character. -/
def punctuation? (b : UInt8) : Option Token :=
  match b with
  | 0x7B => some .openObject
  | 0x7D => some .closeObject
  | 0x5B => some .openArray
  | 0x5D => some .closeArray
  | 0x2C => some .comma
  | 0x3A => some .colon
  | _ => none

/-- A letter that makes an escape of one character. -/
def isShortEscape (b : UInt8) : Bool :=
  b = 0x22 || b = 0x5C || b = 0x2F || b = 0x62 || b = 0x66 || b = 0x6E || b = 0x72 || b = 0x74

/-- Where the scanner is between two bytes; what is read of the token comes backwards. -/
inductive Scan where
  | between
  | word (read : List UInt8)
  | text (read : List UInt8)
  /-- Behind a backslash. -/
  | escape (read : List UInt8)
  /-- Within a numeric escape, of which `left + 1` digits are to come. -/
  | codePoint (left : Nat) (read : List UInt8)

/-- The scanner after one byte, together with the tokens found so far, the last one first. -/
def scanByte (state : Scan) (found : List Token) (b : UInt8) : Option (Scan × List Token) :=
  match state with
  | .between => start found
  | .word read =>
    if isWordByte b then some (.word (b :: read), found)
    else do start ((← word? read.reverse) :: found)
  | .text read =>
    if b = 0x22 then some (.between, .text read.reverse :: found)
    else if b = 0x5C then some (.escape (b :: read), found)
    else if b < 0x20 then none
    else some (.text (b :: read), found)
  | .escape read =>
    if isShortEscape b then some (.text (b :: read), found)
    else if b = 0x75 then some (.codePoint 3 (b :: read), found)
    else none
  | .codePoint left read =>
    if isHexDigit b then
      match left with
      | 0 => some (.text (b :: read), found)
      | left + 1 => some (.codePoint left (b :: read), found)
    else none
where
  /-- The scanner after a byte that begins a token or stands between two. -/
  start (found : List Token) : Option (Scan × List Token) :=
    if isSpace b then some (.between, found)
    else if b = 0x22 then some (.text [], found)
    else if isWordByte b then some (.word [b], found)
    else (punctuation? b).map fun t => (.between, t :: found)

/-- Cuts bytes into tokens, from within a scan. -/
def scanFrom (state : Scan) (found : List Token) : List UInt8 → Option (List Token)
  | [] =>
    match state with
    | .between => some found.reverse
    | .word read => do return ((← word? read.reverse) :: found).reverse
    | _ => none
  | b :: s =>
    match scanByte state found b with
    | some (state, found) => scanFrom state found s
    | none => none

/-- The tokens of JSON text. -/
def Token.scan (s : List UInt8) : Option (List Token) :=
  scanFrom .between [] s

end RadarFeed.Json
