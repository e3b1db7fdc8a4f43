import RadarFeed.Decode.Error
import RadarFeed.Text.Ascii
import RadarFeed.Text.Blank
import RadarFeed.Text.Utf8

/-!
Fields of binary files: numbers with the first byte the most significant, text and times.

A number is read at an offset of bytes that are known to be long enough; a byte beyond them counts
as zero.
-/

namespace RadarFeed.Bytes

def byteAt (data : List UInt8) (offset : Nat) : Nat :=
  ((data[offset]?).getD 0).toNat

/-- The number of two bytes at an offset. -/
def word16 (data : List UInt8) (offset : Nat) : Nat :=
  byteAt data offset * 256 + byteAt data (offset + 1)

/-- The number of two bytes at an offset, the upper half of the range for negative ones. -/
def int16 (data : List UInt8) (offset : Nat) : Int :=
  let n := word16 data offset
  if n < 32768 then n else (n : Int) - 65536

/-- The number of four bytes at an offset. -/
def word32 (data : List UInt8) (offset : Nat) : Nat :=
  word16 data offset * 65536 + word16 data (offset + 2)

/-- The bytes from `start` up to `stop`. -/
def slice (data : List UInt8) (start stop : Nat) : List UInt8 :=
  (data.drop start).take (stop - start)

/-- Characters that are cut off at both ends of text: blanks and zeros. -/
def isFill (c : Char) : Bool :=
  c = '\x00' || Text.isBlank c

/-- Text without fill at its ends. -/
def text (field : FileField) (data : List UInt8) : Except DecodeError String :=
  match Utf8.decode data with
  | some s => .ok (String.ofList (Text.trim isFill s))
  | none => .error (.invalidText field)

def time (day millis : Nat) : Except DecodeError Instant :=
  (radarTime day millis).mapError DecodeError.ofRadarDay

/-- Text of four bytes, all letters or digits. -/
def isSiteId (s : String) : Bool :=
  Utf8.size s.toList = 4 && s.toList.all Ascii.isAlphanumeric

end RadarFeed.Bytes
