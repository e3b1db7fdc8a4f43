import RadarFeed.Text.Blank

/-!
Paths of files.

A path is written as text and keeps its spelling. Two paths name the same file of an index when
they have the same components: repeated and trailing slashes do not count, nor does a point, unless
the path begins with it; two points stay, since only the file system can resolve them.
-/

namespace RadarFeed

/-- A path, as it is written. -/
structure Path where
  text : String
deriving DecidableEq, Repr, Inhabited

namespace Path

/-- A component of a path. -/
inductive Component where
  /-- The slash at the start of an absolute path. -/
  | root
  /-- The point at the start of a relative path. -/
  | here
  /-- Two points. -/
  | up
  | name (s : String)
deriving DecidableEq, Repr

/-- The pieces of a path between slashes. -/
def pieces (p : Path) : List String :=
  (Text.splitAt '/' p.text.toList).map String.ofList

/-- A path that begins with a slash. -/
def isAbsolute (p : Path) : Bool :=
  p.text.toList.head? = some '/'

/-- The component that a piece behind the first one stands for, if it counts. -/
def component? (piece : String) : Option Component :=
  if piece = "" ∨ piece = "." then none
  else if piece = ".." then some .up
  else some (.name piece)

/-- What a path begins with: the root, a point or nothing special. -/
def start (p : Path) : List Component :=
  if p.isAbsolute then [.root]
  else if p.pieces.head? = some "." then [.here]
  else []

def components (p : Path) : List Component :=
  p.start ++ p.pieces.filterMap component?

/-- Whether two paths have the same components. -/
def same (p q : Path) : Bool :=
  p.components = q.components

/-- `q` as seen from the directory `p`; an absolute path stays as it is. -/
def join (p q : Path) : Path :=
  if q.isAbsolute then q
  else if p.text = "" ∨ p.text.toList.getLast? = some '/' then ⟨p.text ++ q.text⟩
  else ⟨p.text ++ "/" ++ q.text⟩

/-- The pieces behind as many components as a list has, if they begin with them. -/
def dropComponents : List Component → List String → Option (List String)
  | [], pieces => some pieces
  | _ :: _, [] => none
  | c :: rest, piece :: pieces =>
    match component? piece with
    | none => dropComponents (c :: rest) pieces
    | some d => if c = d then dropComponents rest pieces else none

/-- Pieces without those at their ends that do not count. -/
def trimPieces (pieces : List String) : List String :=
  let ignored := fun piece => (component? piece).isNone
  ((pieces.dropWhile ignored).reverse.dropWhile ignored).reverse

/-- The last piece of a path and the pieces in front of it. Slashes at the end do not count. -/
def last? (p : Path) : Option (List String × String) :=
  match p.pieces.reverse.dropWhile (· = "") with
  | [] => none
  | piece :: above => some (above.reverse, piece)

/-- The paths that pieces in reverse order lead to, the whole path first and then what is above it.
Pieces that do not count end no path. -/
def along : List String → List Path
  | [] => []
  | piece :: above =>
    if (component? piece).isNone then along above
    else ⟨"/".intercalate (piece :: above).reverse⟩ :: along above

/-- The paths of the directories above the last component of a path, the nearest first, without
the directory that the path starts from. -/
def ancestors (p : Path) : List Path :=
  (along p.pieces.reverse).tail

/-- What is left of a path behind the directory `q`, if it begins with it. -/
def below (p q : Path) : Option Path :=
  if p.start = q.start then
    (dropComponents (q.pieces.filterMap component?) p.pieces).map fun pieces =>
      ⟨"/".intercalate (trimPieces pieces)⟩
  else none

theorem same_refl (p : Path) : p.same p = true := by
  simp [same]

theorem same_comm (p q : Path) : p.same q = q.same p := by
  simp [same, eq_comm]

theorem same_trans {p q r : Path} (h : p.same q = true) (k : q.same r = true) :
    p.same r = true := by
  simp [same] at *; rw [h, k]

end Path

end RadarFeed
