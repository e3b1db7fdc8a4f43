import RadarFeed.Feed.Basic

/-!
The steps of a load.

`startLoad` begins one; a file that is in the index is answered at once, a product that was never
asked for drops the request. Then each step takes an answer from outside: what a source knows of a
key, the bytes of an object or a file, the outcome of the decoder. A step that does not fit the
phase of the load changes nothing.

A decoded record is stored with the manager of its own site, whoever loaded it, once the grids of
that manager are computed; the first record at its time stays.
-/

namespace RadarFeed

/-- What a source knows of the object that a load wants. -/
structure KeyAnswer where
  key : Option String
  /-- The time of the key. -/
  time : Option Instant
deriving DecidableEq, Repr, Inhabited

namespace Feed

/-- A time that may be missing, as the log shows it. -/
def describeTime (time : Option Instant) : String :=
  Record.describeOption (time.map Instant.isoText)

def startLoad (f : Feed) (n : Nat) (source : LoadSource) (request : Option Nat) : Feed :=
  let id := f.radarId n
  let load : Work := .load ⟨n, source, request, .waiting⟩
  match source with
  | .object none time =>
    (f.say .debug (id ++ ": Load Level 2 data " ++ describeTime time)).start load
  | .object (some product) time =>
    let f := f.say .debug (id ++ ": Load Level 3 " ++ product ++ " data " ++ describeTime time)
    match f.machine? ⟨n, some product⟩ with
    | some _ => (f.update n fun m => m.ensureCache product).start load
    | none =>
      (f.say .debug (id ++ ": No Level 3 provider manager for product " ++ product)).dropRequest
        request
  | .file path =>
    let f := f.say .debug (id ++ ": Load file " ++ path.text)
    match f.files.get? path with
    | some r => (f.say .debug (path.text ++ ": File previously loaded")).complete request (some r)
    | none => f.start load
  | .stream _ => (f.say .debug (id ++ ": Load data")).start load

/-- Whether a load holds a lock. -/
def isLocked (f : Feed) (lock : Lock) : Bool :=
  f.tasks.any fun t =>
    match t.work with
    | .load l => l.holdsLock && decide (l.lock = lock)
    | _ => false

/-- The load of a task. -/
def load? (f : Feed) (id : Nat) : Option Load :=
  match f.work? id with
  | some (.load l) => some l
  | _ => none

/-- Brings a load into a phase. -/
def enter (f : Feed) (id : Nat) (l : Load) (phase : LoadPhase) : Feed :=
  f.setWork id (.load { l with phase := phase })

/-- Answers from a cache. -/
def fromCache (f : Feed) (id : Nat) (l : Load) (r : Record) : Feed :=
  (f.say .debug (r.text ++ " Data previously loaded, loading from cache")).enter id l
    (.answering (some r))

/-- The name of the machine whose source a load asks. -/
def machineName (f : Feed) (l : Load) (product : Option String) : String :=
  ((f.machine? ⟨l.manager, product⟩).map Refresher.name).getD ""

/-- Begins to load an object: it is in the cache at the time asked for, or there is none, or it is
in the cache at the time of its key, or it has to be fetched. -/
def beginObject (f : Feed) (id : Nat) (l : Load) (product : Option String)
    (time : Option Instant) (found : KeyAnswer) : Feed :=
  let cache := ((f.manager? l.manager).map fun m => m.cacheOf product).getD .empty
  match time.bind cache.get? with
  | some r => f.fromCache id l r
  | none =>
    match found.key with
    | none =>
      (f.say .debug (f.machineName l product ++ " No object for " ++ describeTime time)).enter id l
        (.answering none)
    | some key =>
      match found.time.bind cache.get? with
      | some r => f.fromCache id l r
      | none => f.enter id l (.fetching key)

/-- Begins to load a file, which may have been loaded while this load waited. -/
def beginFile (f : Feed) (id : Nat) (l : Load) (path : Path) : Feed :=
  match f.files.get? path with
  | some r => f.enter id l (.answering (some r))
  | none => f.enter id l .reading

/-- Reads a stream. -/
def beginStream (f : Feed) (id : Nat) (l : Load) : Except String (List UInt8) → Feed
  | .ok bytes => f.enter id l (.decoding bytes)
  | .error cause =>
    (f.say .warn (f.radarId l.manager ++ ": Cannot read data: " ++ cause)).enter id l
      (.answering none)

/-- A load that waits takes its lock, if nobody holds it. -/
def beginLoad (f : Feed) (id : Nat) (found : KeyAnswer) : Feed :=
  match f.load? id with
  | some l =>
    match l.phase with
    | .waiting =>
      if f.isLocked l.lock then f
      else
        match l.source with
        | .object product time => f.beginObject id l product time found
        | .file path => f.beginFile id l path
        | .stream contents => f.beginStream id l contents
    | _ => f
  | none => f

/-- A load gets the object that it has asked for. -/
def takeObject (f : Feed) (id : Nat) (answer : Except SourceError (List UInt8)) : Feed :=
  match f.load? id with
  | some l =>
    match l.phase, l.source with
    | .fetching key, .object product _ =>
      match answer with
      | .ok bytes => f.enter id l (.decoding bytes)
      | .error e =>
        (f.say .warn (f.machineName l product ++ " Cannot load " ++ key ++ ": " ++ e.message)).enter
          id l (.answering none)
    | _, _ => f
  | none => f

/-- A load gets the bytes of its file. -/
def takeContents (f : Feed) (id : Nat) (answer : Except FileError (List UInt8)) : Feed :=
  match f.load? id with
  | some l =>
    match l.phase, l.source with
    | .reading, .file path =>
      match answer with
      | .ok bytes => f.enter id l (.decoding bytes)
      | .error e =>
        (f.say .warn ("Cannot read " ++ path.text ++ ": " ++ e.message)).enter id l
          (.answering none)
    | _, _ => f
  | none => f

/-- The record of a decoded file goes to the manager of its own site. -/
def route (f : Feed) (id : Nat) (l : Load) (file : RadarFile) : Feed :=
  let r := Record.ofFile f.nextSerial file
  let f := { f with nextSerial := f.nextSerial + 1 }
  let f := if r.radarId = f.radarId l.manager then f
    else f.say .debug (r.text ++ " loaded through " ++ f.radarId l.manager)
  let (f, owner) := f.manager r.radarId
  f.enter id l (.initializing r owner)

/-- A load gets the outcome of the decoder. -/
def takeDecoded (f : Feed) (id : Nat) (outcome : DecodeOutcome) (remarks : List LogLine) : Feed :=
  match f.load? id with
  | some l =>
    match l.phase with
    | .decoding _ =>
      let f := f.note remarks
      let manager := f.radarId l.manager
      match outcome with
      | .file file => f.route id l file
      | .error e =>
        (f.say .warn (manager ++ ": Cannot decode data: " ++ e.message)).enter id l
          (.answering none)
      | .broken =>
        (f.say .error (manager ++ ": Decoder failed")).enter id l (.answering none)
    | _ => f
  | none => f

/-- Computes the grids of a manager, unless that has been done. -/
def computeGrids (f : Feed) (n : Nat) : Feed :=
  match f.manager? n with
  | none => f
  | some m =>
    if m.initialized then f
    else
      let f := f.say .debug (m.radarId ++ ": Initializing")
      let f := f.note (Geodesy.RadialSize.all.map fun size =>
        ⟨.debug, m.radarId ++ ": Coordinates (" ++ size.display ++ ") calculated"⟩)
      f.update n fun m => { m with initialized := true }

/-- Stores a record with its manager and gives the record that the manager has then. -/
def store (f : Feed) (owner : Nat) (r : Record) : Feed × Record :=
  let stored := ((f.manager? owner).map fun m => m.stored r).getD r
  let f := f.update owner fun m => m.store r
  if stored.serial = r.serial then (f, stored)
  else (f.say .debug (stored.text ++ " previously loaded, using cached record"), stored)

/-- The grids of the record's own manager are computed: the record is stored, and indexed if it
comes from a file. -/
def takeGrids (f : Feed) (id : Nat) : Feed :=
  match f.load? id with
  | some l =>
    match l.phase with
    | .initializing r owner =>
      let (f, stored) := (f.computeGrids owner).store owner r
      let f := match l.source with
        | .file path => { f with files := f.files.insert path stored }
        | _ => f
      f.enter id l (.answering (some stored))
    | _ => f
  | none => f

/-- A load that has a result answers its request and ends. -/
def answer (f : Feed) (id : Nat) : Feed :=
  match f.load? id with
  | some l =>
    match l.phase with
    | .answering result => (f.complete l.request result).finish id
    | _ => f
  | none => f

end Feed

end RadarFeed
