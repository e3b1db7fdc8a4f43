import RadarFeed.Decode.Bytes

/-!
The header of a Level 2 volume file: 24 bytes.

The signature `AR2V00`, two bytes of version, a point, three bytes of extension, the day and the
milliseconds of the start, and the four letters of the site. `VolumeHeader.bytes` writes a header
and `VolumeHeader.read` reads one from the beginning of a file.
-/

namespace RadarFeed

/-- The identity of a volume. -/
structure VolumeHeader where
  radarId : String
  version : String
  extension : String
  /-- The start of the volume scan. -/
  start : Instant
deriving DecidableEq, Repr, Inhabited

namespace VolumeHeader

/-- What a volume file begins with: `AR2V00`. -/
def signature : List UInt8 := [0x41, 0x52, 0x32, 0x56, 0x30, 0x30]

/-- The number of bytes of a header. -/
def size : Nat := 24

/-- The point between version and extension. -/
def point : Nat := 0x2E

/-- Reads the header of a file. -/
def read (data : List UInt8) : Except DecodeError VolumeHeader := do
  if data.length < size then
    throw (.tooShort size data.length)
  if !signature.isPrefixOf data || Bytes.byteAt data 8 ≠ point then
    throw (.unknownSignature (data.take 9))
  let version ← Bytes.text .version (Bytes.slice data 6 8)
  let extension ← Bytes.text .extension (Bytes.slice data 9 12)
  let start ← Bytes.time (Bytes.word32 data 12) (Bytes.word32 data 16)
  let radarId ← Bytes.text .siteId (Bytes.slice data 20 24)
  if !Bytes.isSiteId radarId then
    throw (.invalidField .siteId radarId)
  return ⟨Ascii.upper radarId, version, extension, start⟩

/-- A number of 32 bits as four bytes. -/
def word32Bytes (n : Nat) : List UInt8 :=
  [UInt8.ofNat (n / 16777216), UInt8.ofNat (n / 65536), UInt8.ofNat (n / 256), UInt8.ofNat n]

/-- The bytes of a header with the given fields. -/
def fieldBytes (version extension : List UInt8) (day millis : Nat) (radarId : List UInt8) :
    List UInt8 :=
  signature ++ version ++ [UInt8.ofNat point] ++ extension ++ word32Bytes day ++
    word32Bytes millis ++ radarId

end VolumeHeader

end RadarFeed
