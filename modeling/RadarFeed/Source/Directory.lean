import RadarFeed.Source.Error
import RadarFeed.Time.Stamp
import RadarFeed.Timeline

/-!
Sources over a tree of directories.

Below the root there is a directory for each site, in it `level2` with volumes and `level3` with a
directory for each product. The name of an object carries its time. `refresh` takes a new listing
of the directory of objects: names of other sites or products and names without a time do not
count, and of several names with one time the last that is listed is kept.
-/

namespace RadarFeed

/-- A source over a directory. -/
structure DirectorySource where
  /-- The site, in capitals. -/
  radarId : String
  /-- The code of the product, in capitals; volumes have none. -/
  product : Option String
  /-- Where the objects are. -/
  objectDir : Path
  /-- Where the directories of the products are. -/
  productsDir : Path
  /-- The names that were found, by their time. -/
  objects : Timeline String
  lastModified : Option Instant
  /-- The time between the two newest objects. -/
  updatePeriod : Option Duration
  /-- The products that were found. -/
  available : List String
deriving Inhabited

namespace DirectorySource

def siteDir (root : Path) (radarId : String) : Path :=
  root.join ⟨Ascii.upper radarId⟩

/-- The source of the volumes of a site. -/
def level2 (root : Path) (radarId : String) : DirectorySource :=
  ⟨Ascii.upper radarId, none, (siteDir root radarId).join ⟨"level2"⟩,
    (siteDir root radarId).join ⟨"level3"⟩, .empty, none, none, []⟩

/-- The source of a Level 3 product of a site. -/
def level3 (root : Path) (radarId product : String) : DirectorySource :=
  ⟨Ascii.upper radarId, some (Ascii.upper product),
    ((siteDir root radarId).join ⟨"level3"⟩).join ⟨Ascii.upper product⟩,
    (siteDir root radarId).join ⟨"level3"⟩, .empty, none, none, []⟩

/-- The source of a site, of volumes or of a product. -/
def of (root : Path) (radarId : String) : Option String → DirectorySource
  | none => level2 root radarId
  | some product => level3 root radarId product

/-- A name of a volume belongs to the site that its first four bytes name. -/
def isOfSite (radarId key : String) : Bool :=
  match Utf8.slice 0 4 key.toList with
  | some site => Ascii.sameLetters (String.ofList site) radarId
  | none => false

/-- A name of a product belongs to the product that its second part names. -/
def isOfProduct (product key : String) : Bool :=
  match Text.splitAt '_' key.toList with
  | _ :: part :: _ => Ascii.sameLetters (String.ofList part) product
  | _ => false

/-- The time of a key, if it belongs to this source. -/
def keyTime (s : DirectorySource) (key : String) : Option Instant :=
  match s.product with
  | none => if isOfSite s.radarId key then Stamp.level2KeyTime key else none
  | some product => if isOfProduct product key then Stamp.level3KeyTime key else none

/-- The objects among the names of a listing. -/
def eligible (s : DirectorySource) (names : List String) : List (Instant × String) :=
  names.filterMap fun name => (s.keyTime name).map fun t => (t, name)

/-- The span between the two newest objects. -/
def newestPeriod (times : List Instant) : Option Duration :=
  match times.reverse with
  | latest :: previous :: _ =>
    let span := latest.since previous
    if 0 ≤ span then some ⟨span.toNat⟩ else none
  | _ => none

def takeListing (s : DirectorySource) (names : List String) : DirectorySource × News :=
  let objects := Timeline.ofList (s.eligible names)
  let fresh := objects.times.filter fun t => (s.objects.get? t).isNone
  ({ s with
      objects := objects
      lastModified := objects.times.getLast?
      updatePeriod := newestPeriod objects.times },
    ⟨fresh.length, objects.size⟩)

/-- Looks for new objects. A directory that does not exist is an empty one. -/
def refresh (s : DirectorySource) (listing : Except FileError (List (String × Bool))) :
    DirectorySource × Except SourceError News :=
  match listing with
  | .ok names =>
    let (s, news) := s.takeListing (names.map Prod.fst)
    (s, .ok news)
  | .error .notFound =>
    let (s, news) := s.takeListing []
    (s, .ok news)
  | .error e => (s, .error (.io s.objectDir e))

/-- The key of the last object not after a time. -/
def findKey (s : DirectorySource) (t : Instant) : Option String :=
  s.objects.atOrBefore t

/-- The key of the last object. -/
def latestKey (s : DirectorySource) : Option String :=
  s.objects.latest

/-- A key is the name of a file in a directory. -/
def isName (key : String) : Bool :=
  key ≠ "" && key ≠ ".." && key.toList.all fun c => c ≠ '/' && c ≠ '\\'

/-- The object under a key. -/
def load (s : DirectorySource) (tree : FileTree) (key : String) :
    Except SourceError (List UInt8) :=
  if isName key then
    match tree.read (s.objectDir.join ⟨key⟩) with
    | .ok bytes => .ok bytes
    | .error .notFound => .error (.noSuchKey key)
    | .error e => .error (.io (s.objectDir.join ⟨key⟩) e)
  else .error (.noSuchKey key)

/-- The products that directories in a listing stand for, in their order. -/
def productsOf (listing : List (String × Bool)) : List String :=
  (listing.filterMap fun (name, isDirectory) =>
    if isDirectory then some (Ascii.upper name) else none).mergeSort fun a b => decide (a ≤ b)

/-- Looks for the products that are offered. A directory that does not exist is an empty one. -/
def requestProducts (s : DirectorySource) (listing : Except FileError (List (String × Bool))) :
    DirectorySource × Except SourceError Unit :=
  match listing with
  | .ok names => ({ s with available := productsOf names }, .ok ())
  | .error .notFound => ({ s with available := [] }, .ok ())
  | .error e => (s, .error (.io s.productsDir e))

/-- What the source says of its newest object. -/
def outlook (s : DirectorySource) : Outlook :=
  ⟨s.latestKey, s.latestKey.bind s.keyTime, s.lastModified,
    s.updatePeriod.getD defaultUpdatePeriod⟩

end DirectorySource

end RadarFeed
