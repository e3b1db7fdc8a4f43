import RadarFeed.Decode.Bytes

/-!
The message of a Level 3 product: a header of 18 bytes and, in most products, the block that
describes the product.

`Level3Message.read` reads the header and `Level3Message.volumeTime` finds the time of the volume
scan in the block behind it.
-/

namespace RadarFeed

/-- The message of a Level 3 product. -/
structure Level3Message where
  code : Int
  time : Instant
  length : Nat
  source : Int
  destination : Int
  blocks : Nat
  /-- The whole message, from its header on. -/
  data : List UInt8
deriving DecidableEq, Repr, Inhabited

namespace Level3Message

/-- The number of bytes of a message header. -/
def headerSize : Nat := 18

/-- What a description block begins with. -/
def divider : Int := -1

/-- Where the description block has the day of the volume scan. -/
def volumeDay : Nat := 22

/-- The bytes of a description block up to the end of the time of the volume scan. -/
def volumeTimeEnd : Nat := 28

/-- Reads the header of a message. -/
def read (data : List UInt8) : Except DecodeError Level3Message := do
  if data.length < headerSize then
    throw (.tooShort headerSize data.length)
  let time ← Bytes.time (Bytes.word16 data 2) (Bytes.word32 data 4 * 1000)
  return ⟨Bytes.int16 data 0, time, Bytes.word32 data 8, Bytes.int16 data 12, Bytes.int16 data 14,
    Bytes.word16 data 16, data⟩

/-- The time that a description block gives for the volume scan. -/
def blockTime (block : List UInt8) : Option Instant :=
  if volumeTimeEnd ≤ block.length ∧ Bytes.int16 block 0 = divider then
    (Bytes.time (Bytes.word16 block volumeDay)
      (Bytes.word32 block (volumeDay + 2) * 1000)).toOption
  else none

/-- The time of the volume scan, or the time of the message where no block gives it. -/
def volumeTime (m : Level3Message) : Instant :=
  (blockTime (m.data.drop headerSize)).getD m.time

end Level3Message

end RadarFeed
