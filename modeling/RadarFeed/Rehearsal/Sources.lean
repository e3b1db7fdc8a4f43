import RadarFeed.Feed.Move
import RadarFeed.Source.Directory
import RadarFeed.Source.Memory

/-!
The sources of a rehearsal: prepared ones, or directories of one tree of files.

Prepared sources belong to a site and a product and outlive the managers that ask them; every
machine has a directory source of its own. All questions are asked in the name of a machine.
-/

namespace RadarFeed

/-- The sources of a rehearsal. -/
inductive Sources where
  /-- Prepared sources by site and product, which is empty for volumes. -/
  | memory (sources : Keyed (String × String) MemorySource)
  /-- Directories below a root, each known by the machine that asks it. -/
  | directories (root : Path) (sources : Keyed MachineId DirectorySource)
deriving Inhabited

/-- Where the answers of sources come from. -/
structure Backdrop where
  tree : FileTree
  sources : Sources
  /-- The time that sources take for the present. -/
  now : Instant
deriving Inhabited

namespace Backdrop

/-- A prepared source. -/
def memorySource (sources : Keyed (String × String) MemorySource) (key : String × String) :
    MemorySource :=
  (sources.get? key).getD .empty

/-- The key of the prepared source of a machine. -/
def memoryKey (f : Feed) (id : MachineId) : String × String :=
  (f.radarId id.manager, id.product.getD "")

def directorySource (root : Path) (sources : Keyed MachineId DirectorySource) (f : Feed)
    (id : MachineId) : DirectorySource :=
  (sources.get? id).getD (.of root (f.radarId id.manager) id.product)

/-- The answers of the sources take time, so that other tasks go on meanwhile. -/
def isSlow (b : Backdrop) : Bool :=
  match b.sources with
  | .memory _ => false
  | .directories _ _ => true

/-- How many names of a directory are read at a time. -/
def partSize : Nat := 32

/-- How often one has to wait for a listing: each part of the names takes time by itself, and so
does finding out that there is none. -/
def waits (listing : Except FileError (List (String × Bool))) : Nat :=
  match listing with
  | .ok names => names.length / partSize + 1
  | .error _ => 1

/-- How often one has to wait until a source has looked for news. -/
def refreshWaits (b : Backdrop) (f : Feed) (id : MachineId) : Nat :=
  match b.sources with
  | .memory _ => 0
  | .directories root sources => waits (b.tree.list (directorySource root sources f id).objectDir)

/-- How often one has to wait until a source has looked for its products. -/
def productsWaits (b : Backdrop) (f : Feed) (id : MachineId) : Nat :=
  match b.sources with
  | .memory _ => 0
  | .directories root sources =>
    waits (b.tree.list (directorySource root sources f id).productsDir)

/-- What a source says of its newest object. -/
def outlook (b : Backdrop) (f : Feed) (id : MachineId) : Outlook :=
  match b.sources with
  | .memory sources => (memorySource sources (memoryKey f id)).outlook b.now
  | .directories root sources => (directorySource root sources f id).outlook

/-- What a source knows of the object at or before a time, or of the last one. -/
def find (b : Backdrop) (f : Feed) (id : MachineId) (time : Option Instant) : KeyAnswer :=
  match b.sources with
  | .memory sources =>
    let s := memorySource sources (memoryKey f id)
    let key := match time with
      | some t => s.findKey t
      | none => s.latestKey
    ⟨key, key.bind s.keyTime⟩
  | .directories root sources =>
    let s := directorySource root sources f id
    let key := match time with
      | some t => s.findKey t
      | none => s.latestKey
    ⟨key, key.bind s.keyTime⟩

/-- Asks a source for news. -/
def refresh (b : Backdrop) (f : Feed) (id : MachineId) : Backdrop × Except SourceError News :=
  match b.sources with
  | .memory sources =>
    let key := memoryKey f id
    let (s, news) := (memorySource sources key).refresh
    ({ b with sources := .memory (sources.set key s) }, news)
  | .directories root sources =>
    let s := directorySource root sources f id
    let (s, news) := s.refresh (b.tree.list s.objectDir)
    ({ b with sources := .directories root (sources.set id s) }, news)

/-- Asks a source for the object under a key. -/
def object (b : Backdrop) (f : Feed) (id : MachineId) (key : String) :
    Backdrop × Except SourceError (List UInt8) :=
  match b.sources with
  | .memory sources =>
    let name := memoryKey f id
    let (s, answer) := (memorySource sources name).load key
    ({ b with sources := .memory (sources.set name s) }, answer)
  | .directories root sources => (b, (directorySource root sources f id).load b.tree key)

/-- Asks a source for the list of products. -/
def requestProducts (b : Backdrop) (f : Feed) (id : MachineId) :
    Backdrop × Except SourceError Unit :=
  match b.sources with
  | .memory sources =>
    let key := memoryKey f id
    let (s, answer) := (memorySource sources key).requestProducts
    ({ b with sources := .memory (sources.set key s) }, answer)
  | .directories root sources =>
    let s := directorySource root sources f id
    let (s, answer) := s.requestProducts (b.tree.list s.productsDir)
    ({ b with sources := .directories root (sources.set id s) }, answer)

/-- The list of products as a source last had it. -/
def products (b : Backdrop) (f : Feed) (id : MachineId) : List String :=
  match b.sources with
  | .memory sources => (memorySource sources (memoryKey f id)).available
  | .directories root sources => (directorySource root sources f id).available

/-- Changes a prepared source. -/
def changeMemory (b : Backdrop) (key : String × String) (change : MemorySource → MemorySource) :
    Backdrop :=
  match b.sources with
  | .memory sources =>
    { b with sources := .memory (sources.set key (change (memorySource sources key))) }
  | .directories _ _ => b

end Backdrop

end RadarFeed
