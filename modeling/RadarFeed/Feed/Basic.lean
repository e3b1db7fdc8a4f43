import RadarFeed.Feed.Task
import RadarFeed.File.Index
import RadarFeed.Manager
import RadarFeed.Request

/-!
The feed: all managers of a process, what they share, and the work under way.

Managers are found in the registry by the id of their site. The registry does not keep them: a
manager lives as long as somebody outside holds it or a task needs it, and `sweep` ends those that
nobody does. What managers share is the index of files, the sites and the settings.
-/

namespace RadarFeed

structure Feed where
  sites : SiteTable
  settings : Settings
  /-- All managers that were ever created, in the order of their creation. -/
  managers : List Manager
  /-- The manager last created for each site. -/
  registry : Keyed String Nat
  /-- The managers that are held from outside, as often as they are. -/
  holders : List Nat
  /-- The records of the files that were loaded. -/
  files : FileIndex Record
  /-- The sites whose managers were created. -/
  created : Channel String
  tasks : List Task
  requests : List (Request String Record)
  /-- The callbacks that have run, each with its result. -/
  called : List (String × Option Record)
  nextTask : Nat
  nextSerial : Nat
  log : List LogLine
deriving Inhabited

namespace Feed

/-- A feed without managers. -/
def new (sites : SiteTable) (settings : Settings) : Feed where
  sites := sites
  settings := settings
  managers := []
  registry := .empty
  holders := []
  files := .empty
  created := .new settings.eventCapacity
  tasks := []
  requests := []
  called := []
  nextTask := 0
  nextSerial := 0
  log := []

/-! ## The log, the tasks and the managers -/

/-- Adds lines to the log. -/
def note (f : Feed) (lines : List LogLine) : Feed :=
  { f with log := f.log ++ lines }

/-- Adds a line to the log. -/
def say (f : Feed) (level : LogLevel) (text : String) : Feed :=
  f.note [⟨level, text⟩]

/-- Starts a task. -/
def start (f : Feed) (work : Work) : Feed :=
  { f with tasks := f.tasks ++ [⟨f.nextTask, work⟩], nextTask := f.nextTask + 1 }

/-- The work of a task. -/
def work? (f : Feed) (id : Nat) : Option Work :=
  (f.tasks.find? fun t => t.id = id).map Task.work

/-- Goes on with a task. -/
def setWork (f : Feed) (id : Nat) (work : Work) : Feed :=
  { f with tasks := f.tasks.map fun t => if t.id = id then ⟨id, work⟩ else t }

/-- Ends a task. -/
def finish (f : Feed) (id : Nat) : Feed :=
  { f with tasks := f.tasks.filter fun t => t.id ≠ id }

def manager? (f : Feed) (n : Nat) : Option Manager :=
  f.managers[n]?

/-- The id of the site of a manager. -/
def radarId (f : Feed) (n : Nat) : String :=
  ((f.manager? n).map Manager.radarId).getD ""

def update (f : Feed) (n : Nat) (change : Manager → Manager) : Feed :=
  { f with managers := f.managers.modify n change }

/-! ## Machines -/

def machine? (f : Feed) (id : MachineId) : Option Refresher := do
  (← f.manager? id.manager).machine? id.product

/-- Does what a step of a machine wants done. -/
def perform (f : Feed) (id : MachineId) : RefreshEffect → Feed
  | .log line => f.note [line]
  | .event e => f.update id.manager fun m => { m with events := m.events.send e }
  | .cycle => f.start (.cycle id false)
  | .timer token => f.start (.timer id token)

def stepMachine (f : Feed) (id : MachineId) (move : RefreshMove) : Feed :=
  match f.machine? id with
  | none => f
  | some r =>
    let (r, effects) := r.step move
    effects.foldl (fun f e => f.perform id e)
      (f.update id.manager fun m => m.setMachine id.product r)

/-- Makes sure that a manager has a machine for a product. -/
def ensureMachine (f : Feed) (n : Nat) (product : String) : Feed :=
  match f.machine? ⟨n, some product⟩ with
  | some _ => f
  | none =>
    (f.say .debug (f.radarId n ++ ": Level 3 provider manager for " ++ Ascii.upper product)).update
      n (Manager.ensureMachine · (.ofSeconds f.settings.retryIntervalSecs) product)

/-! ## The registry -/

/-- The manager of a site in the registry, if it lives. -/
def living? (f : Feed) (radarId : String) : Option Nat := do
  let n ← f.registry.get? radarId
  let m ← f.manager? n
  if m.alive then some n else none

/-- Creates the manager of a site. -/
def create (f : Feed) (radarId : String) : Feed × Nat :=
  let n := f.managers.length
  let (f, site) := match f.sites.find? radarId with
    | some site => (f, site)
    | none => (f.say .warn (radarId ++ ": Radar site not found"), Site.unknown)
  let f := { f with
    managers := f.managers ++ [Manager.new f.settings radarId site]
    registry := f.registry.set radarId n
    created := f.created.send radarId }
  (f.say .info (radarId ++ ": Radar product manager created"), n)

/-- The manager of a site, which is created unless it lives. -/
def manager (f : Feed) (radarId : String) : Feed × Nat :=
  let radarId := Ascii.upper radarId
  match f.living? radarId with
  | some n => (f, n)
  | none => f.create radarId

/-- The sites whose managers live, in the order of their ids. -/
def activeSites (f : Feed) : List String :=
  (f.registry.keys.filter fun id => (f.living? id).isSome).mergeSort fun a b => decide (a ≤ b)

def describe (f : Feed) : String :=
  "RadarContext \x7b sites: " ++ toString f.sites.size ++ ", active: [" ++
    ", ".intercalate (f.activeSites.map Text.quoted) ++ "], files: " ++ toString f.files.size ++
    " \x7d"

/-- Somebody needs a manager. -/
def isNeeded (f : Feed) (n : Nat) : Bool :=
  f.holders.contains n || f.tasks.any fun t => t.work.keeps n

/-- Ends a manager: its machines are disabled. -/
def endManager (f : Feed) (n : Nat) : Feed :=
  let effects := ((f.manager? n).map Manager.machines).getD [] |>.flatMap fun r => r.disable.2
  let lines := effects.filterMap fun e =>
    match e with
    | .log line => some line
    | _ => none
  ((f.note lines).say .debug (f.radarId n ++ ": Radar product manager dropped")).update n
    fun m => { m.disableAll with alive := false }

/-- Ends the managers that live and that nobody needs. -/
def sweep (f : Feed) : Feed :=
  (List.range f.managers.length).foldl (fun f n =>
    match f.manager? n with
    | some m => if m.alive && !f.isNeeded n then f.endManager n else f
    | none => f) f

/-! ## Requests -/

/-- Completes the request of a load, if it has one. -/
def complete (f : Feed) (request : Option Nat) (result : Option Record) : Feed :=
  match request.bind fun i => f.requests[i]?.map fun r => (i, r) with
  | none => f
  | some (i, r) =>
    let (r, calls) := r.complete result
    { f with requests := f.requests.set i r, called := f.called ++ calls }

/-- Drops the request of a load, if it has one. -/
def dropRequest (f : Feed) (request : Option Nat) : Feed :=
  match request with
  | none => f
  | some i => { f with requests := f.requests.modify i Request.drop }

end Feed

end RadarFeed
