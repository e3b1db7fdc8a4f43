import RadarFeed.File.Tree
import RadarFeed.Time.Instant

/-!
What sources of objects answer.

A source holds objects under keys, each the bytes of one file, and knows the time of each. `News`
is what a source finds when it looks for new objects, `Outlook` what can be asked of it at once.
-/

namespace RadarFeed

/-- Why a source gives no answer. -/
inductive SourceError where
  /-- A file or directory cannot be read. -/
  | io (path : Path) (cause : FileError)
  | noSuchKey (key : String)
  | noSuchProduct (product : String)
deriving DecidableEq, Repr

/-- The error as users read it. -/
def SourceError.message : SourceError → String
  | io path _ => "I/O operation on '" ++ path.text ++ "' failed"
  | noSuchKey key => "No object with key '" ++ key ++ "'"
  | noSuchProduct product => "Product '" ++ product ++ "' is not offered"

/-- The objects that a source finds. -/
structure News where
  /-- The number of objects that were not there before. -/
  fresh : Nat
  /-- The number of all objects. -/
  total : Nat
deriving DecidableEq, Repr, Inhabited

/-- What a source says of its newest object. -/
structure Outlook where
  /-- The key of the newest object. -/
  latestKey : Option String
  /-- The time of that key. -/
  latestTime : Option Instant
  /-- When the newest object was made. -/
  lastModified : Option Instant
  /-- The time between two objects. -/
  updatePeriod : Duration
deriving DecidableEq, Repr, Inhabited

/-- The time between two objects of a source that does not know better. -/
def defaultUpdatePeriod : Duration := .ofSeconds 300

end RadarFeed
