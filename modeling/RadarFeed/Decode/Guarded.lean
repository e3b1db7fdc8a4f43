import RadarFeed.Level3.Product
import RadarFeed.Volume.Decode

/-!
The decoders as they run, with every access guarded.

A computation breaks off where it reads beyond the end of bytes, cuts them or a text where there is
no such place, takes a word that is missing, or reaches a number that 64 bits do not hold. A number
that is read with a sign, or with fewer bits, keeps its bits and not its value. Positions are not
among these numbers: they exceed the length of data in memory by a few bytes at most.
-/

namespace RadarFeed

/-- A computation that ends with a value or an error, or breaks off. -/
abbrev Guarded (α : Type) := ExceptT DecodeError Option α

namespace Guarded

/-! ## Accesses -/

/-- The byte at a position, if there is one. -/
def byte (data : List UInt8) (i : Nat) : Option UInt8 :=
  data[i]?

/-- The word at a place among words, if there is one. -/
def word (words : List (List Char)) (i : Nat) : Option (List Char) :=
  words[i]?

/-- The bytes from `start` up to `stop`, if there are such. -/
def slice (data : List UInt8) (start stop : Nat) : Option (List UInt8) :=
  if start ≤ stop ∧ stop ≤ data.length then some (Bytes.slice data start stop) else none

/-- The bytes from `start` on, if `data` goes that far. -/
def after (data : List UInt8) (start : Nat) : Option (List UInt8) :=
  if start ≤ data.length then some (data.drop start) else none

def word16 (data : List UInt8) (i : Nat) : Option Nat := do
  let high ← byte data i
  let low ← byte data (i + 1)
  return high.toNat * 256 + low.toNat

def int16 (data : List UInt8) (i : Nat) : Option Int := do
  let n ← word16 data i
  return if n < 32768 then (n : Int) else (n : Int) - 65536

def word32 (data : List UInt8) (i : Nat) : Option Nat := do
  let high ← word16 data i
  let low ← word16 data (i + 2)
  return high * 65536 + low

/-! ## Numbers -/

/-- A number that 64 bits hold. -/
def word64 (n : Nat) : Option Nat :=
  if n < 18446744073709551616 then some n else none

/-- A number that 64 bits hold with its sign. -/
def int64 (x : Int) : Option Int :=
  if -9223372036854775808 ≤ x ∧ x ≤ 9223372036854775807 then some x else none

/-- The number with a sign that has the 64 bits of `n`. -/
def signed64 (n : Nat) : Int :=
  Int.bmod n 18446744073709551616

/-- The number of the lower 32 bits of `n`. -/
def low32 (n : Nat) : Nat :=
  n % 4294967296

/-- The instant of a radar day and milliseconds from its midnight. -/
def time (day millis : Nat) : Guarded Instant := do
  if day = 0 then
    throw (.invalidField .day "0")
  let days ← int64 (signed64 day - 1)
  let midnight ← int64 (days * secondsPerDay)
  let seconds ← int64 (midnight + signed64 (millis / 1000))
  let nanos ← word64 (millis % 1000 * 1000000)
  match Instant.ofSeconds? seconds (low32 nanos) with
  | some t => return t
  | none => throw (.invalidField .time (toString seconds))

/-! ## Volumes -/

/-- Whether a file begins like a volume, up to the point behind the version. -/
def isSigned (data : List UInt8) : Option Bool :=
  if VolumeHeader.signature.isPrefixOf data then
    return (← byte data 8).toNat = VolumeHeader.point
  else return false

/-- Reads the header of a volume file. -/
def header (data : List UInt8) : Guarded VolumeHeader := do
  if data.length < VolumeHeader.size then
    throw (.tooShort VolumeHeader.size data.length)
  if !(← isSigned data) then
    throw (.unknownSignature (← slice data 0 9))
  let version ← Bytes.text .version (← slice data 6 8)
  let extension ← Bytes.text .extension (← slice data 9 12)
  let start ← time (← word32 data 12) (← word32 data 16)
  let radarId ← Bytes.text .siteId (← slice data 20 24)
  if !Bytes.isSiteId radarId then
    throw (.invalidField .siteId radarId)
  return ⟨Ascii.upper radarId, version, extension, start⟩

/-- Decodes a volume file. -/
def volume (reader : RecordReader) (data : List UInt8) : Guarded Volume := do
  let header ← header data
  Volume.ofHeader reader data header

/-! ## Products -/

/-- The position of the first line end. -/
def lineEndAt : List UInt8 → Option Nat
  | [] => none
  | b :: s => if Level3.lineEnd.isPrefixOf (b :: s) then some 0 else (lineEndAt s).map (· + 1)

/-- The first line of `data` without its end, and what follows it. -/
def nextLine (data : List UInt8) : Option (Option (List UInt8 × List UInt8)) :=
  match lineEndAt data with
  | none => return none
  | some i => return some (← slice data 0 i, ← after data (i + Level3.lineEnd.length))

/-- `data` without the start line. -/
def skipStart (data : List UInt8) : Option (List UInt8) :=
  if data.head? = some Level3.startOfHeading then do
    match ← nextLine data with
    | some (_, rest) => return rest
    | none => return data
  else return data

/-- `data` without a line that holds a sequence number. -/
def skipNumber (data : List UInt8) : Option (List UInt8) := do
  match ← nextLine data with
  | some (line, rest) => return if Level3.isSequenceNumber line then rest else data
  | none => return data

/-- Reads the heading: its text and the office. -/
def heading (line : List UInt8) : Guarded (String × String) := do
  let heading ← Bytes.text .heading line
  let words := Text.words heading.toList
  if words.length < 3 then
    throw (.invalidField .heading heading)
  let first ← word words 0
  let name ← word words 1
  if !(Utf8.size first = 6 && Bytes.isSiteId (String.ofList name)) then
    throw (.invalidField .heading heading)
  return (heading, Ascii.upper (String.ofList name))

/-- Reads the identifier: the code of the product and what follows it. -/
def identifier (line : List UInt8) : Guarded (String × String) := do
  let id := Ascii.upper (← Bytes.text .identifier line)
  if !Level3.isIdentifier id then
    throw (.invalidField .identifier id)
  let (code, suffix) ← Utf8.splitBytes 3 id.toList
  return (String.ofList code, String.ofList suffix)

/-- Reads the lines of text, and gives what follows them. -/
def origin (data : List UInt8) : Guarded (Level3.Origin × List UInt8) := do
  match ← nextLine (← skipNumber (← skipStart data)) with
  | none => throw (.unknownSignature (← slice data 0 (min data.length 9)))
  | some (line, rest) =>
    let (heading, office) ← heading line
    match ← nextLine rest with
    | none => throw (.tooShort (data.length + Level3.lineEnd.length) data.length)
    | some (line, rest) =>
      let (productCode, suffix) ← identifier line
      return (⟨heading, office, productCode, suffix⟩, rest)

/-- The time of the volume scan that `block` gives, and `t` where it gives none. -/
def volumeTime (block : List UInt8) (t : Instant) : Guarded Instant := do
  if Level3Message.volumeTimeEnd ≤ block.length then
    if (← int16 block 0) = Level3Message.divider then
      let day ← word16 block Level3Message.volumeDay
      let seconds ← word32 block (Level3Message.volumeDay + 2)
      tryCatch (time day (← word64 (seconds * 1000))) fun _ => return t
    else return t
  else return t

/-- Reads a message, and gives the time of the volume scan. -/
def message (data : List UInt8) : Guarded (Level3Message × Instant) := do
  if data.length < Level3Message.headerSize then
    throw (.tooShort Level3Message.headerSize data.length)
  let day ← word16 data 2
  let seconds ← word32 data 4
  let t ← time day (← word64 (seconds * 1000))
  let volumeTime ← volumeTime (← after data Level3Message.headerSize) t
  let message : Level3Message :=
    ⟨← int16 data 0, t, ← word32 data 8, ← int16 data 12, ← int16 data 14, ← word16 data 16, data⟩
  return (message, volumeTime)

/-- Decodes the file of a product. -/
def product (sites : SiteTable) (data : List UInt8) : Guarded Level3Product := do
  let (origin, rest) ← origin data
  let (message, time) ← message rest
  return ⟨origin.radarId sites, origin.productCode, origin.heading, time, message⟩

end Guarded

end RadarFeed
