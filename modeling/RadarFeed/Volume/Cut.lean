import RadarFeed.Product.Group
import RadarFeed.Volume.Header

/-!
Level 2 volumes: for each moment the cuts in the order in which they were collected.

A cut is a sweep of one moment. The type of its elevation is a parameter, so that selection by
elevation can be studied with exact numbers; volumes that are read from files have elevations of
single precision.
-/

namespace RadarFeed

/-- One radial of a moment. -/
structure Radial where
  /-- Azimuth in degrees. -/
  azimuth : Float32
  /-- Elevation in degrees. -/
  elevation : Float32
  time : Instant
  /-- Range to the centre of the first gate. -/
  firstGateKm : Float32
  gateIntervalKm : Float32
  /-- The value of each gate; a gate without one is not a number. -/
  values : List Float32
deriving Inhabited

/-- One sweep of a moment. -/
structure Cut (α : Type) where
  /-- Elevation of the first radial of the sweep, in degrees. -/
  elevation : α
  /-- The time of the first radial of the cut. -/
  start : Instant
  radials : List Radial

/-- A volume with elevations in `α`. -/
structure VolumeOf (α : Type) where
  header : VolumeHeader
  /-- The cuts of each moment that has any. -/
  cuts : List (Moment × List (Cut α))

abbrev Volume := VolumeOf Float32

namespace VolumeOf

variable {α : Type}

def cutsOf (v : VolumeOf α) (moment : Moment) : List (Cut α) :=
  ((v.cuts.find? fun e => e.1 = moment).map Prod.snd).getD []

/-- The number of cuts of all moments. -/
def cutCount (v : VolumeOf α) : Nat :=
  v.cuts.foldr (fun e n => e.2.length + n) 0

end VolumeOf

end RadarFeed
