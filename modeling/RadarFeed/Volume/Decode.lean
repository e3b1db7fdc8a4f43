import RadarFeed.Keyed
import RadarFeed.Time.Civil
import RadarFeed.Volume.Cut
import RadarFeed.Volume.Sweep

/-!
Decoding a Level 2 volume.

One sweep after the other is taken apart by moments. It gives at most one cut of each: the radials
that carry the moment and whose time an instant can have. The cut comes behind those that earlier
sweeps have given. The moment of the clutter filter does not go into a decoded volume. The contents
of the records come from a reader of records, which `Volume.decode` is given.
-/

namespace RadarFeed

/-- What a reader of records makes of a file: its sweeps, or the text of an error. -/
abbrev RecordReader := List UInt8 → Except String (List Sweep)

/-- The data of a moment, if the radial carries it. -/
def SweepRadial.data? (r : SweepRadial) (moment : Moment) : Option MomentData :=
  (r.moments.find? fun e => e.1 = moment).map Prod.snd

namespace Volume

/-- The value that stands for none. -/
def noValue : Float32 := 0.0 / 0.0

/-- The data of a moment that go into a decoded volume. -/
def momentOf (moment : Moment) (r : SweepRadial) : Option MomentData :=
  match moment with
  | .clutterFilterPowerRemoved => none
  | moment => r.data? moment

/-- The radial of a moment, if it has the moment and a time. -/
def radialOf (moment : Moment) (r : SweepRadial) : Option Radial := do
  let data ← momentOf moment r
  let time ← Instant.ofMillis? r.millis
  return ⟨r.azimuth, r.elevation, time, data.firstGateKm, data.gateIntervalKm,
    data.values.map fun v => v.getD noValue⟩

/-- The cut of a moment that a sweep gives. -/
def cutOf (moment : Moment) (sweep : Sweep) : Option (Cut Float32) := do
  let first ← sweep.head?
  match sweep.filterMap (radialOf moment) with
  | [] => none
  | r :: rest => return ⟨first.elevation, r.time, r :: rest⟩

/-- The cuts of each moment that has any. -/
abbrev Cuts := Keyed Moment (List (Cut Float32))

/-- The cuts of a moment. -/
def Cuts.ofMoment (cuts : Cuts) (moment : Moment) : List (Cut Float32) :=
  (cuts.get? moment).getD []

/-- The cuts with one more, which comes last of its moment. -/
def Cuts.push (cuts : Cuts) (moment : Moment) (cut : Cut Float32) : Cuts :=
  cuts.set moment (cuts.ofMoment moment ++ [cut])

/-- The cuts with the one that a sweep gives of a moment, if it gives one. -/
def addMoment (sweep : Sweep) (cuts : Cuts) (moment : Moment) : Cuts :=
  match cutOf moment sweep with
  | some cut => cuts.push moment cut
  | none => cuts

/-- The cuts with those that a sweep gives. -/
def addSweep (cuts : Cuts) (sweep : Sweep) : Cuts :=
  Moment.all.foldl (addMoment sweep) cuts

/-- The cuts that sweeps give, one sweep after the other. -/
def splitCuts (sweeps : List Sweep) : Cuts :=
  sweeps.foldl addSweep .empty

/-- The error of a volume that no sweep gives a cut. -/
def noMoments (header : VolumeHeader) : DecodeError :=
  .volume s!"{header.radarId} volume at {header.start.longText} has no moment data"

/-- Decodes what follows the header of a volume file. -/
def ofHeader (reader : RecordReader) (data : List UInt8) (header : VolumeHeader) :
    Except DecodeError Volume := do
  let sweeps ← (reader data).mapError DecodeError.volume
  match (splitCuts sweeps).entries with
  | [] => throw (noMoments header)
  | cuts => return ⟨header, cuts⟩

/-- Decodes a volume file. -/
def decode (reader : RecordReader) (data : List UInt8) : Except DecodeError Volume := do
  ofHeader reader data (← VolumeHeader.read data)

end Volume

end RadarFeed
