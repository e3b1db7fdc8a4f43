import RadarFeed.Decode.Bytes

/-!
The lines of text in front of the message of a Level 3 product.

A line ends with two carriage returns and a line feed. Transmission may have put a start line and
a line with a sequence number before the others. The heading names the office that issued the
product, the identifier behind it the product and, in six letters, also the radar.
-/

namespace RadarFeed.Level3

/-- What ends a line: two carriage returns and a line feed. -/
def lineEnd : List UInt8 := [0x0D, 0x0D, 0x0A]

/-- What the start line of a transmission begins with. -/
def startOfHeading : UInt8 := 0x01

/-- The first line of `data` without its end, and what follows it. -/
def nextLine : List UInt8 → Option (List UInt8 × List UInt8)
  | [] => none
  | b :: s =>
    if lineEnd.isPrefixOf (b :: s) then some ([], s.drop 2)
    else (nextLine s).map fun (line, rest) => (b :: line, rest)

/-- The blanks of ASCII text, without the vertical tabulator. -/
def isAsciiBlank (b : UInt8) : Bool :=
  b = 0x20 || b = 0x09 || b = 0x0A || b = 0x0C || b = 0x0D

/-- Bytes without the blanks at their ends. -/
def trimmed (line : List UInt8) : List UInt8 :=
  ((line.dropWhile isAsciiBlank).reverse.dropWhile isAsciiBlank).reverse

/-- A line that holds digits only, blanks at its ends aside. -/
def isSequenceNumber (line : List UInt8) : Bool :=
  !(trimmed line).isEmpty && (trimmed line).all fun b => 0x30 ≤ b && b ≤ 0x39

/-- `data` without the start line. -/
def skipStart (data : List UInt8) : List UInt8 :=
  if data.head? = some startOfHeading then
    match nextLine data with
    | some (_, rest) => rest
    | none => data
  else data

/-- `data` without a line that holds a sequence number. -/
def skipNumber (data : List UInt8) : List UInt8 :=
  match nextLine data with
  | some (line, rest) => if isSequenceNumber line then rest else data
  | none => data

/-- `data` without what transmission has put before the heading. -/
def skipFraming (data : List UInt8) : List UInt8 :=
  skipNumber (skipStart data)

/-- The office in a heading: the second of at least three words, of which the first has six bytes
and the second is four letters or digits. -/
def office? (heading : String) : Option String :=
  match Text.words heading.toList with
  | first :: office :: _ :: _ =>
    if Utf8.size first = 6 && Bytes.isSiteId (String.ofList office) then
      some (Ascii.upper (String.ofList office))
    else none
  | _ => none

/-- Reads the heading: its text and the office. -/
def readHeading (line : List UInt8) : Except DecodeError (String × String) := do
  let heading ← Bytes.text .heading line
  match office? heading with
  | some office => return (heading, office)
  | none => throw (.invalidField .heading heading)

/-- An identifier is four to six letters or digits. -/
def isIdentifier (s : String) : Bool :=
  4 ≤ Utf8.size s.toList && Utf8.size s.toList ≤ 6 && s.toList.all Ascii.isAlphanumeric

/-- Reads the identifier: the code of the product and what follows it. -/
def readIdentifier (line : List UInt8) : Except DecodeError (String × String) := do
  let id := Ascii.upper (← Bytes.text .identifier line)
  if !isIdentifier id then
    throw (.invalidField .identifier id)
  return (String.ofList (id.toList.take 3), String.ofList (id.toList.drop 3))

end RadarFeed.Level3
