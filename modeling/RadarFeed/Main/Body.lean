import RadarFeed.Decode.Bytes
import RadarFeed.Main.Message

/-!
What follows the header of a volume file.

The body is one record without a size when its first four bytes are zero. Otherwise it is a
sequence of records, each behind four bytes with its size, whose sign does not count. A volume
needs the message that describes its coverage pattern.
-/

namespace RadarFeed

/-- Why the body of a volume cannot be read. -/
inductive BodyError where
  /-- The body ends before `expected` bytes. -/
  | truncated (expected actual : Nat)
  /-- A record has no bytes. -/
  | emptyRecord (offset : Nat)
  /-- No message describes the coverage pattern. -/
  | noCoverage
deriving DecidableEq, Repr

/-- The error as users read it. -/
def BodyError.message : BodyError → String
  | truncated expected actual =>
    s!"data error: truncated record: expected {expected} bytes, got {actual}"
  | emptyRecord offset => s!"data error: invalid record size 0 at offset {offset}"
  | noCoverage => "data error: volume missing coverage pattern (message type 5)"

namespace VolumeBody

/-- The size that four bytes give. -/
def recordSize (body : List UInt8) : Nat :=
  let n := Bytes.word32 body 0
  if n < 2147483648 then n else 4294967296 - n

/-- The records of `rest`, which begins at `offset` of a body of `total` bytes. -/
def recordsFrom (total offset : Nat) (rest : List UInt8) : Except BodyError (List (List UInt8)) :=
  if _h : rest = [] then .ok []
  else if rest.length < 4 then .error (.truncated (offset + 4) total)
  else
    let size := recordSize rest
    if size = 0 then .error (.emptyRecord offset)
    else if rest.length < 4 + size then .error (.truncated (offset + 4 + size) total)
    else do
      let later ← recordsFrom total (offset + 4 + size) (rest.drop (4 + size))
      return (rest.drop 4).take size :: later
termination_by rest.length
decreasing_by
  have := List.length_pos_iff.2 _h
  simp only [List.length_drop]
  omega

def records (body : List UInt8) : Except BodyError (List (List UInt8)) :=
  if [0, 0, 0, 0].isPrefixOf body then .ok [body]
  else recordsFrom body.length 0 body

/-- The sweeps of a body whose records hold no messages: the records are checked, and the coverage
pattern is missed. -/
def withoutMessages (body : List UInt8) : Except BodyError (List Sweep) := do
  let _ ← records body
  throw .noCoverage

/-- The sweeps of radial messages, of which a volume without coverage pattern has none. -/
def ofMessages (coverage : Bool) (messages : List RadialMessage) : Except BodyError (List Sweep) :=
  if coverage then .ok (sweepsOf messages) else .error .noCoverage

end VolumeBody

end RadarFeed
