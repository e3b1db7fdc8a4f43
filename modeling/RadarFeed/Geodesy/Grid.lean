import RadarFeed.Geodesy.Direct

/-!
The grid of positions of a sweep: one latitude and longitude for every range gate of every radial.

`cell` is the position of one cell by its number: the cells of a radial follow one another from the
radar outwards, the radials clockwise from north. `inChunks` is the grid as several workers compute
it, each a run of cells of equal length but the last; `compute` is the grid cell by cell. What the
workers do with their runs (`share`) is said of any values that a grid can hold.
-/

namespace RadarFeed.Geodesy

/-- The angular width of a radial. -/
inductive RadialSize where
  | halfDegree
  | oneDegree
deriving DecidableEq, Repr, Inhabited

/-- The range gates of a radial. -/
def gatesPerRadial : Nat := 1840

namespace RadialSize

/-- Both sizes. -/
def all : List RadialSize := [.halfDegree, .oneDegree]

/-- The radials of a full sweep. -/
def radials : RadialSize → Nat
  | halfDegree => 720
  | oneDegree => 360

/-- The width in degrees. -/
def width : RadialSize → Float
  | halfDegree => 0.5
  | oneDegree => 1.0

/-- The cells of a full sweep. -/
def cells (size : RadialSize) : Nat :=
  size.radials * gatesPerRadial

/-- The numbers in a grid, two for each cell. -/
def gridLength (size : RadialSize) : Nat :=
  size.radials * gatesPerRadial * 2

/-- The size as users read it. -/
def display : RadialSize → String
  | halfDegree => "0.5 degree"
  | oneDegree => "1 degree"

/-- The size as data files name it. -/
def name : RadialSize → String
  | halfDegree => "HalfDegree"
  | oneDegree => "OneDegree"

end RadialSize

/-- A solver of the direct geodesic problem: latitude, longitude, azimuth, distance. -/
abbrev Solver := Float → Float → Float → Float → Float × Float

/-- The position of a cell of a sweep around a point, where gates lie `gate` metres apart. -/
def cell (solve : Solver) (lat lon : Float) (gate : Float32) (size : RadialSize) (k : Nat) :
    Float32 × Float32 :=
  let angle := Float.ofNat (k / gatesPerRadial) * size.width - size.width / 2.0
  let range := Float.ofNat (k % gatesPerRadial + 1) * gate.toFloat
  let (cellLat, cellLon) := solve lat lon angle range
  (cellLat.toFloat32, cellLon.toFloat32)

/-- The grid of a sweep, cell by cell: latitude and longitude of each. -/
def compute (solve : Solver) (lat lon : Float) (gate : Float32) (size : RadialSize) :
    List Float32 :=
  (List.range size.cells).flatMap fun k =>
    let (cellLat, cellLon) := cell solve lat lon gate size k
    [cellLat, cellLon]

/-- The cells of each worker when `total` cells are shared by `workers`. -/
def cellsPerWorker (total workers : Nat) : Nat :=
  (total + (workers - 1)) / workers

/-- Cuts a list into runs of `n`, of which the last may be shorter. -/
def chunks {α : Type} (n : Nat) (s : List α) : List (List α) :=
  if _h : n = 0 ∨ s = [] then [] else s.take n :: chunks n (s.drop n)
termination_by s.length
decreasing_by
  simp only [not_or] at _h
  have := List.length_pos_iff.2 _h.2
  simp only [List.length_drop]
  omega

/-- Writes cell after cell over its pair of values in `buffer`. The first cell is number `first`. -/
def fill {α : Type} (put : Nat → α × α → α × α) (first : Nat) : List α → List α
  | a :: b :: rest =>
    let (a, b) := put first (a, b)
    a :: b :: fill put (first + 1) rest
  | rest => rest

/-- Writes `total` cells over a grid that `workers` workers share, each of them over its run. -/
def share {α : Type} (workers total : Nat) (put : Nat → α × α → α × α) (grid : List α) : List α :=
  let perWorker := cellsPerWorker total workers
  ((chunks (perWorker * 2) grid).zipIdx.map fun (buffer, chunk) =>
    fill put (chunk * perWorker) buffer).flatten

/-- The grid of a sweep as `workers` workers compute it, each over its run of an empty grid. -/
def inChunks (workers : Nat) (solve : Solver) (lat lon : Float) (gate : Float32)
    (size : RadialSize) : List Float32 :=
  share workers size.cells (fun k _ => cell solve lat lon gate size k)
    (List.replicate size.gridLength 0)

end RadarFeed.Geodesy
