import RadarFeed.Product.Group

/-!
What a reader of records finds in a volume file: sweeps of the antenna and their radials.
-/

namespace RadarFeed

/-- The values of a moment along a radial. -/
structure MomentData where
  firstGateKm : Float32
  gateIntervalKm : Float32
  /-- The value of each gate that has one. -/
  values : List (Option Float32)

structure SweepRadial where
  elevation : Float32
  azimuth : Float32
  /-- Milliseconds from 1970-01-01T00:00:00Z. -/
  millis : Int
  moments : List (Moment × MomentData)

/-- The radials of one turn of the antenna. -/
abbrev Sweep := List SweepRadial

end RadarFeed
