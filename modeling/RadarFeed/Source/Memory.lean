import RadarFeed.Source.Error
import RadarFeed.Timeline

/-!
Sources whose answers are prepared in advance.

Such a source holds objects by their time. Its answers to the next questions for news stand in a
queue; once that is empty, nothing is new. It counts how often it is asked.
-/

namespace RadarFeed

/-- An object of a prepared source. -/
structure MemoryObject where
  key : String
  time : Instant
  /-- The bytes, unless they cannot be read. -/
  bytes : Option (List UInt8)
  /-- The source knows the time of the key. -/
  dated : Bool
deriving DecidableEq, Repr, Inhabited

/-- A prepared source. -/
structure MemorySource where
  objects : Timeline MemoryObject
  /-- The answers to come. -/
  answers : List (Except SourceError News)
  /-- What the list of products is when it can be had. -/
  products : List String
  /-- The list of products cannot be had. -/
  listFails : Bool
  /-- The list of products as it was last had. -/
  available : List String
  /-- The age of the newest object in seconds. -/
  age : Option Int
  updatePeriod : Duration
  /-- How often the source was asked for news. -/
  refreshes : Nat
  /-- How often the source was asked for an object. -/
  loads : Nat
  /-- How often the source was asked for the list of products. -/
  lists : Nat
deriving Inhabited

namespace MemorySource

/-- The source without objects. -/
def empty : MemorySource :=
  ⟨.empty, [], [], false, [], none, defaultUpdatePeriod, 0, 0, 0⟩

/-- Adds an object; one at the same time is replaced. -/
def add (s : MemorySource) (o : MemoryObject) : MemorySource :=
  { s with objects := s.objects.insert o.time o }

/-- The answer to a question for news that no prepared answer is left for. -/
def noNews (s : MemorySource) : News := ⟨0, s.objects.size⟩

/-- Looks for new objects. -/
def refresh (s : MemorySource) : MemorySource × Except SourceError News :=
  let s := { s with refreshes := s.refreshes + 1 }
  match s.answers with
  | answer :: rest => ({ s with answers := rest }, answer)
  | [] => (s, .ok s.noNews)

/-- The key of the last object not after a time. -/
def findKey (s : MemorySource) (t : Instant) : Option String :=
  (s.objects.atOrBefore t).map MemoryObject.key

/-- The key of the last object. -/
def latestKey (s : MemorySource) : Option String :=
  s.objects.latest.map MemoryObject.key

/-- The objects in the order of time. -/
def all (s : MemorySource) : List MemoryObject :=
  s.objects.entries.map Prod.snd

def keyTime (s : MemorySource) (key : String) : Option Instant :=
  (s.all.find? fun o => o.key = key && o.dated).map MemoryObject.time

/-- The object under a key. -/
def load (s : MemorySource) (key : String) : MemorySource × Except SourceError (List UInt8) :=
  ({ s with loads := s.loads + 1 },
    match (s.all.find? fun o => o.key = key).bind MemoryObject.bytes with
    | some bytes => .ok bytes
    | none => .error (.noSuchKey key))

/-- Looks for the products that are offered. -/
def requestProducts (s : MemorySource) : MemorySource × Except SourceError Unit :=
  let s := { s with lists := s.lists + 1 }
  if s.listFails then (s, .error (.noSuchProduct "listing"))
  else ({ s with available := s.products }, .ok ())

/-- What the source says of its newest object at a time. -/
def outlook (s : MemorySource) (now : Instant) : Outlook :=
  ⟨s.latestKey, s.latestKey.bind s.keyTime,
    s.age.map fun age => { now with seconds := now.seconds - age }, s.updatePeriod⟩

end MemorySource

end RadarFeed
