import RadarFeed.File.Path
import RadarFeed.Text.Utf8

/-!
File systems: directories and the bytes of files.

A path is followed piece by piece; each piece but the last must lead to a directory, and so must
the last one when a slash follows it. What cannot be done has a `FileError`, whose message is that
of the operating system. An operation of several steps that fails leaves what its first steps did:
`makeDirectories` and `write` answer the file system in both cases.
-/

namespace RadarFeed

/-- Why a file or directory cannot be read or made. -/
inductive FileError where
  | notFound
  | alreadyExists
  | isDirectory
  | notDirectory
  | nameTooLong
  /-- A name contains a zero. -/
  | zeroInName
deriving DecidableEq, Repr

/-- The error as the operating system words it. -/
def FileError.message : FileError → String
  | notFound => "No such file or directory (os error 2)"
  | alreadyExists => "File exists (os error 17)"
  | isDirectory => "Is a directory (os error 21)"
  | notDirectory => "Not a directory (os error 20)"
  | nameTooLong => "File name too long (os error 36)"
  | zeroInName => "file name contained an unexpected NUL byte"

/-- What a place of a file system holds. -/
inductive FileNode where
  | directory
  | file (bytes : List UInt8)
deriving DecidableEq, Repr

/-- A file system. -/
structure FileTree where
  /-- Where relative paths start. -/
  home : List String
  /-- The places below the root, in the order in which they were made. -/
  places : List (List String × FileNode)
deriving Inhabited

namespace FileTree

/-- The file system with no more than the directory `home`. -/
def ofHome (home : String) : FileTree :=
  ⟨[home], [([home], .directory)]⟩

/-- What is at a place. The root is a directory. -/
def node? (tree : FileTree) (place : List String) : Option FileNode :=
  if place.isEmpty then some .directory
  else (tree.places.find? fun e => e.1 = place).map Prod.snd

/-- The longest name in bytes. -/
def maxName : Nat := 255

/-- The longest path in bytes. -/
def maxPath : Nat := 4095

/-- Follows pieces of a path from a place. -/
def follow (tree : FileTree) : List String → List String → Except FileError (List String)
  | place, [] => .ok place
  | place, piece :: rest =>
    match tree.node? place with
    | none => .error .notFound
    | some (.file _) => .error .notDirectory
    | some .directory =>
      if piece = "" ∨ piece = "." then follow tree place rest
      else if piece = ".." then follow tree place.dropLast rest
      else if maxName < Utf8.size piece.toList then .error .nameTooLong
      else if (tree.node? (place ++ [piece])).isSome then follow tree (place ++ [piece]) rest
      else .error .notFound

/-- Where a path starts. -/
def origin (tree : FileTree) (p : Path) : List String :=
  if p.isAbsolute then [] else tree.home

/-- A path is followed if its text has no zero in it, is not empty and is not too long. -/
def check (p : Path) : Except FileError Unit :=
  if p.text.toList.contains '\x00' then .error .zeroInName
  else if p.text = "" then .error .notFound
  else if maxPath < Utf8.size p.text.toList then .error .nameTooLong
  else .ok ()

/-- The place that a path leads to. -/
def locate (tree : FileTree) (p : Path) : Except FileError (List String) := do
  check p
  tree.follow (tree.origin p) p.pieces

/-- The bytes of a file. -/
def read (tree : FileTree) (p : Path) : Except FileError (List UInt8) := do
  match tree.node? (← tree.locate p) with
  | some (.file bytes) => return bytes
  | some .directory => throw .isDirectory
  | none => throw .notFound

/-- The name of a place directly below another. -/
def nameBelow (above place : List String) : Option String :=
  if place.dropLast = above then place.getLast? else none

/-- The names in a directory and whether they are directories. -/
def list (tree : FileTree) (p : Path) : Except FileError (List (String × Bool)) := do
  let place ← tree.locate p
  match tree.node? place with
  | some .directory =>
    return tree.places.filterMap fun e =>
      (nameBelow place e.1).map fun name => (name, e.2 = .directory)
  | some (.file _) => throw .notDirectory
  | none => throw .notFound

/-- The file system with a node at a place. -/
def set (tree : FileTree) (place : List String) (node : FileNode) : FileTree :=
  if tree.places.any fun e => e.1 = place then
    { tree with places := tree.places.map fun e => if e.1 = place then (place, node) else e }
  else { tree with places := tree.places ++ [(place, node)] }

/-- Whether a path leads to a directory. -/
def isDirectory (tree : FileTree) (p : Path) : Bool :=
  match tree.locate p with
  | .ok place => tree.node? place = some .directory
  | .error _ => false

/-- The directory that pieces of a path lead to. -/
def enter (tree : FileTree) (p : Path) (pieces : List String) : Except FileError (List String) :=
  tree.follow (tree.origin p) (pieces ++ ["."])

/-- The place below a directory for a name. -/
def placeBelow (place : List String) (name : String) : Except FileError (List String) :=
  if maxName < Utf8.size name.toList then .error .nameTooLong
  else .ok (place ++ [name])

def makeDirectory (tree : FileTree) (p : Path) : Except FileError FileTree := do
  check p
  match p.last? with
  | none => throw .alreadyExists
  | some (above, name) =>
    let place ← tree.enter p above
    if name = "." ∨ name = ".." then throw .alreadyExists
    let place ← placeBelow place name
    if (tree.node? place).isSome then throw .alreadyExists
    return tree.set place .directory

/-- Makes one directory, which may be there already. -/
def ensureDirectory (tree : FileTree) (p : Path) : FileTree × Except FileError Unit :=
  match tree.makeDirectory p with
  | .ok tree => (tree, .ok ())
  | .error e => (tree, if tree.isDirectory p then .ok () else .error e)

/-- Makes the first directory of a list; where something above it is missing, the next ones are
made before it. -/
def ensureFirst (tree : FileTree) : List Path → FileTree × Except FileError Unit
  | [] => (tree, .ok ())
  | p :: above =>
    match tree.ensureDirectory p with
    | (tree, .error .notFound) =>
      match ensureFirst tree above with
      | (tree, .ok ()) => tree.ensureDirectory p
      | failed => failed
    | done => done

/-- Makes a directory and those above it. -/
def makeDirectories (tree : FileTree) (p : Path) : FileTree × Except FileError Unit :=
  if p.text = "" then (tree, .ok ())
  else tree.ensureFirst (p :: p.ancestors)

/-- The place of a file that is made or replaced. A path that ends in a slash is no file's. -/
def locateNew (tree : FileTree) (p : Path) : Except FileError (List String) := do
  check p
  match p.last? with
  | none => throw .isDirectory
  | some (above, name) =>
    let place ← tree.enter p above
    if name = "." ∨ name = ".." ∨ p.pieces.getLast? = some "" then throw .isDirectory
    let place ← placeBelow place name
    if tree.node? place = some .directory then throw .isDirectory
    return place

/-- Writes a file, and makes the directories above it. -/
def write (tree : FileTree) (p : Path) (bytes : List UInt8) : FileTree × Except FileError Unit :=
  match tree.ensureFirst p.ancestors with
  | (tree, .ok ()) =>
    match tree.locateNew p with
    | .ok place => (tree.set place (.file bytes), .ok ())
    | .error e => (tree, .error e)
  | failed => failed

def remove (tree : FileTree) (p : Path) : Except FileError FileTree := do
  let place ← tree.locate p
  match tree.node? place with
  | some (.file _) => return { tree with places := tree.places.filter fun e => e.1 ≠ place }
  | some .directory => throw .isDirectory
  | none => throw .notFound

end FileTree

end RadarFeed
