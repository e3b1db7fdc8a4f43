/-!
The direct geodesic problem on the ellipsoid of the World Geodetic System.

From a point one travels a distance along an initial azimuth; Vincenty's formulas give the point
reached. The angular distance is found by iteration, which ends once a step changes it by less than
a limit, or after a number of steps.
-/

namespace RadarFeed.Geodesy

/-- The equatorial radius of the ellipsoid in metres. -/
def semiMajorAxis : Float := 6378137.0

/-- The flattening of the ellipsoid. -/
def flattening : Float := 1.0 / 298.257223563

/-- The most steps of an iteration. -/
def maxIterations : Nat := 200

/-- The change of the angular distance, in radians, below which an iteration ends. -/
def convergence : Float := 1e-12

/-- The ratio of a circle's circumference to its diameter. -/
def pi : Float := 3.14159265358979311600

/-- An angle in radians, from degrees. -/
def radians (degrees : Float) : Float :=
  degrees * (pi / 180.0)

/-- An angle in degrees, from radians. -/
def degrees (radians : Float) : Float :=
  radians * (180.0 / pi)

/-- What a step of the iteration needs besides the angular distance. -/
structure Arc where
  /-- The angular distance from the equator to the starting point. -/
  start : Float
  /-- The coefficient of the series for the correction. -/
  b : Float
  /-- The angular distance before any correction. -/
  first : Float

/-- An angular distance with the functions of it that were last computed. -/
structure Angular where
  sigma : Float
  sin : Float
  cos : Float
  /-- The cosine of twice the angular distance of the midpoint from the equator. -/
  midpoint : Float

/-- One step of the iteration. -/
def Arc.step (arc : Arc) (x : Angular) : Angular :=
  let midpoint := (2.0 * arc.start + x.sigma).cos
  let sin := x.sigma.sin
  let cos := x.sigma.cos
  let b := arc.b
  let correction :=
    b * sin *
      (midpoint + b / 4.0 *
        (cos * (-1.0 + 2.0 * midpoint * midpoint) -
          b / 6.0 * midpoint * (-3.0 + 4.0 * sin * sin) * (-3.0 + 4.0 * midpoint * midpoint)))
  ⟨arc.first + correction, sin, cos, midpoint⟩

/-- Steps until one changes the angular distance by less than the limit. -/
def Arc.iterate (arc : Arc) : Nat → Angular → Angular
  | 0, x => x
  | left + 1, x =>
    let y := arc.step x
    if (y.sigma - x.sigma).abs < convergence then y else arc.iterate left y

/-- The latitude and longitude reached from a point along an azimuth; angles are in degrees, the
distance in metres. -/
def direct (lat lon azimuth distance : Float) : Float × Float :=
  let a := semiMajorAxis
  let f := flattening
  let b := a * (1.0 - f)
  let azimuth := radians azimuth
  let sinAzimuth := azimuth.sin
  let cosAzimuth := azimuth.cos
  let tanU := (1.0 - f) * (radians lat).tan
  let cosU := 1.0 / (1.0 + tanU * tanU).sqrt
  let sinU := tanU * cosU
  let start := Float.atan2 tanU cosAzimuth
  let sinAlpha := cosU * sinAzimuth
  let cosSqAlpha := 1.0 - sinAlpha * sinAlpha
  let uSq := cosSqAlpha * (a * a - b * b) / (b * b)
  let bigA := 1.0 + uSq / 16384.0 * (4096.0 + uSq * (-768.0 + uSq * (320.0 - 175.0 * uSq)))
  let bigB := uSq / 1024.0 * (256.0 + uSq * (-128.0 + uSq * (74.0 - 47.0 * uSq)))
  let first := distance / (b * bigA)
  let arc : Arc := ⟨start, bigB, first⟩
  let x := arc.iterate maxIterations
    ⟨first, first.sin, first.cos, (2.0 * start + first).cos⟩
  let across := sinU * x.sin - cosU * x.cos * cosAzimuth
  let lat := Float.atan2 (sinU * x.cos + cosU * x.sin * cosAzimuth)
    ((1.0 - f) * (sinAlpha * sinAlpha + across * across).sqrt)
  let lambda := Float.atan2 (x.sin * sinAzimuth) (cosU * x.cos - sinU * x.sin * cosAzimuth)
  let c := f / 16.0 * cosSqAlpha * (4.0 + f * (4.0 - 3.0 * cosSqAlpha))
  let l := lambda - (1.0 - c) * f * sinAlpha *
    (x.sigma + c * x.sin * (x.midpoint + c * x.cos * (-1.0 + 2.0 * x.midpoint * x.midpoint)))
  let lon := lon + degrees l
  let lon :=
    if lon > 180.0 then lon - 360.0
    else if lon < -180.0 then lon + 360.0
    else lon
  (degrees lat, lon)

end RadarFeed.Geodesy
