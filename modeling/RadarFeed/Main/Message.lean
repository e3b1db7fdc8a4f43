import RadarFeed.Volume.Sweep

/-!
The contents of the messages in a volume file, and the sweeps that they make up.

A radial message carries the moments of one radial. Moments are counts, which `GateCoding.value`
turns into values; consecutive messages with the same elevation number form a sweep.
-/

namespace RadarFeed

/-- How the counts of a moment stand for values. -/
structure GateCoding where
  scale : Float32
  offset : Float32

/-- The value of a count. With a scale of zero the count itself; otherwise zero marks a gate below
the threshold and one a gate whose range is folded, which have no value. -/
def GateCoding.value (coding : GateCoding) (raw : Nat) : Option Float32 :=
  if coding.scale == 0 then some (Float32.ofNat raw)
  else if raw = 0 ∨ raw = 1 then none
  else some ((Float32.ofNat raw - coding.offset) / coding.scale)

/-- The counts of a moment along a radial, as a message holds them. -/
structure MomentBlock where
  /-- The name of the moment. -/
  name : String
  /-- Range to the first gate in metres. -/
  first : Float
  /-- Distance of the gates in metres. -/
  interval : Float
  coding : GateCoding
  /-- Whether a count has 16 bits, and not 8. -/
  wide : Bool
  counts : List Nat

/-- A radial, as a message holds it. -/
structure RadialMessage where
  /-- The number of the elevation in the scan. -/
  elevationNumber : Nat
  elevation : Float32
  azimuth : Float32
  /-- The day, in which 1 January 1970 is day 1. -/
  day : Nat
  /-- Milliseconds from midnight. -/
  millis : Nat
  moments : List MomentBlock

def millisPerDay : Nat := 86400000

/-- A range in kilometres, from metres. -/
def kilometres (metres : Float) : Float32 :=
  (metres * 0.001).toFloat32

/-- The values of a block. -/
def MomentBlock.data (block : MomentBlock) : MomentData :=
  let modulus := if block.wide then 65536 else 256
  ⟨kilometres block.first, kilometres block.interval,
    block.counts.map fun n => block.coding.value (n % modulus)⟩

/-- The moments of a radial; a later block takes the place of an earlier one, and blocks with other
names are passed over. -/
def RadialMessage.momentData (m : RadialMessage) : List (Moment × MomentData) :=
  Moment.all.filterMap fun moment =>
    (m.moments.reverse.find? fun block => block.name = moment.display).map fun block =>
      (moment, block.data)

/-- The radial of a message. The day does not change when the milliseconds exceed one. -/
def RadialMessage.radial (m : RadialMessage) : SweepRadial :=
  ⟨m.elevation, m.azimuth,
    (m.day - 1 : Int) * millisPerDay + (m.millis % millisPerDay : Nat), m.momentData⟩

/-- Splits messages into runs with the same elevation number. -/
def sweepRuns : List RadialMessage → List (List RadialMessage)
  | [] => []
  | m :: s =>
    match sweepRuns s with
    | (n :: run) :: rest =>
      if m.elevationNumber = n.elevationNumber then (m :: n :: run) :: rest
      else [m] :: (n :: run) :: rest
    | rest => [m] :: rest

def sweepsOf (messages : List RadialMessage) : List Sweep :=
  (sweepRuns messages).map fun run => run.map RadialMessage.radial

end RadarFeed
