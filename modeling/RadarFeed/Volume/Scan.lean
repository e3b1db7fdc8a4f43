import RadarFeed.Volume.Cut

/-!
Selecting a cut of a volume by elevation.

Among the cuts of a moment that had started by a time, those as near to the requested elevation as
the nearest one, give or take a tolerance, are candidates; the one that started last is taken, so a
repeated elevation shows its latest state. Together with it come the elevations of all cuts in
ascending order, without those that repeat the one before.
-/

namespace RadarFeed

/-- The arithmetic on elevations. -/
class Elevation (α : Type) where
  /-- The order of elevations and of distances between them. -/
  le : α → α → Bool
  /-- The difference of two. -/
  sub : α → α → α
  /-- The distance of two. -/
  gap : α → α → α
  /-- A difference below the tolerance. -/
  isSmall : α → Bool

/-- A key that orders the numbers of single precision, those that are none included, by their
bits. -/
def orderKey (x : Float32) : Int :=
  let n := x.toBits.toNat
  if n < 2147483648 then n else -((n : Int) - 2147483648) - 1

/-- Elevations closer together than this, in degrees, are the same. -/
def elevationTolerance : Float32 := 0.1

instance : Elevation Float32 where
  le x y := orderKey x ≤ orderKey y
  sub x y := x - y
  gap x y := (x - y).abs
  isSmall x := x < elevationTolerance

/-- A cut selected from a volume. -/
structure ElevationScan (α : Type) where
  moment : Moment
  /-- Elevation of the selected cut. -/
  elevation : α
  /-- The elevations of all cuts of the moment. -/
  elevations : List α
  radials : List Radial

namespace ElevationScan

variable {α : Type} [Elevation α]

/-- Drops each element that lies within the tolerance of the last one kept. -/
def dropRepeated : List α → List α
  | [] => []
  | x :: s => x :: go x s
where
  /-- Continues behind the kept element `last`. -/
  go (last : α) : List α → List α
    | [] => []
    | x :: s => if Elevation.isSmall (Elevation.gap x last) then go last s else x :: go x s

/-- The elevations of cuts, in ascending order and without repetitions. -/
def elevationsOf (cuts : List (Cut α)) : List α :=
  dropRepeated ((cuts.map Cut.elevation).mergeSort Elevation.le)

/-- The least element, the first of equal ones. -/
def least? : List α → Option α
  | [] => none
  | x :: s => some (s.foldl (fun best y => if Elevation.le best y then best else y) x)

/-- The cut that started last, the last of those at the same time. -/
def latest? : List (Cut α) → Option (Cut α)
  | [] => none
  | c :: s => some (s.foldl (fun best d => if best.start ≤ d.start then d else best) c)

/-- The cuts that had started by a time. -/
def started (time : Option Instant) (cuts : List (Cut α)) : List (Cut α) :=
  cuts.filter fun c =>
    match time with
    | some t => decide (c.start ≤ t)
    | none => true

/-- The cut nearest to an elevation as it looked at a time. -/
def nearestCut (elevation : α) (time : Option Instant) (cuts : List (Cut α)) :
    Option (Cut α) := do
  let cuts := started time cuts
  let nearest ← least? (cuts.map fun c => Elevation.gap c.elevation elevation)
  latest? (cuts.filter fun c =>
    Elevation.isSmall (Elevation.sub (Elevation.gap c.elevation elevation) nearest))

end ElevationScan

/-- The cut of a moment nearest to an elevation, as it looked at a time. -/
def VolumeOf.scan {α : Type} [Elevation α] (v : VolumeOf α) (moment : Moment) (elevation : α)
    (time : Option Instant) : Option (ElevationScan α) := do
  let cuts := v.cutsOf moment
  let cut ← ElevationScan.nearestCut elevation time cuts
  return ⟨moment, cut.elevation, ElevationScan.elevationsOf cuts, cut.radials⟩

end RadarFeed
