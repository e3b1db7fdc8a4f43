import RadarFeed.Decode.File
import RadarFeed.File.Path
import RadarFeed.Record

/-!
The tasks of a feed: loads, cycles and timers of machines, and updates of lists of products.

A load goes through phases. It waits for the lock of its category, holds it while it fetches,
decodes and stores, and answers once it has let it go. Managers are known by the order of their
creation, tasks and requests by numbers of their own.
-/

namespace RadarFeed

/-- A machine: its manager and, unless it asks for volumes, its product in capitals. -/
structure MachineId where
  manager : Nat
  product : Option String
deriving DecidableEq, Repr, Inhabited

/-- What a load reads. -/
inductive LoadSource where
  /-- The object of a source at or before a time, or the last one. -/
  | object (product : Option String) (time : Option Instant)
  | file (path : Path)
  /-- A stream: what it yields, or why it breaks. -/
  | stream (contents : Except String (List UInt8))
deriving Inhabited

/-- How far a load has come. -/
inductive LoadPhase where
  /-- It waits for the lock. -/
  | waiting
  /-- It has asked a source for the object under a key. -/
  | fetching (key : String)
  /-- It is reading its file. -/
  | reading
  /-- The decoder is at work. -/
  | decoding (bytes : List UInt8)
  /-- The grids of the manager of the record's own site are being computed. -/
  | initializing (record : Record) (owner : Nat)
  /-- It has let the lock go and has a result. -/
  | answering (result : Option Record)
deriving Inhabited

structure Load where
  /-- The manager that started it. -/
  manager : Nat
  source : LoadSource
  /-- The request that it answers. -/
  request : Option Nat
  phase : LoadPhase
deriving Inhabited

/-- What loads of one category exclude each other by. -/
inductive Lock where
  | level2 (manager : Nat)
  | level3 (manager : Nat)
  | files
deriving DecidableEq, Repr

namespace Load

def lock (l : Load) : Lock :=
  match l.source with
  | .object none _ => .level2 l.manager
  | .object (some _) _ => .level3 l.manager
  | .file _ => .files
  | .stream _ => .files

/-- A load holds its lock from the end of its waiting until it has a result. -/
def holdsLock (l : Load) : Bool :=
  match l.phase with
  | .waiting => false
  | .answering _ => false
  | _ => true

/-- A load keeps the manager that started it, and the one that it stores a record with. -/
def keeps (l : Load) (manager : Nat) : Bool :=
  l.manager = manager ||
    match l.phase with
    | .initializing _ owner => owner = manager
    | _ => false

end Load

/-- The work of a task. -/
inductive Work where
  | load (l : Load)
  /-- A cycle of a machine, which waits for its turn or asks the source. -/
  | cycle (machine : MachineId) (asking : Bool)
  | timer (machine : MachineId) (token : Nat)
  /-- An update of the list of products of a manager, which asks the source or has yet to. -/
  | products (manager : Nat) (asking : Bool)
deriving Inhabited

structure Task where
  id : Nat
  work : Work
deriving Inhabited

/-- Whether work keeps a manager alive. -/
def Work.keeps (manager : Nat) : Work → Bool
  | .load l => l.keeps manager
  | .cycle _ _ => false
  | .timer _ _ => false
  | .products m _ => m = manager

end RadarFeed
