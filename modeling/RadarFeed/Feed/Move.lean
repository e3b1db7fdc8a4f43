import RadarFeed.Feed.Loading

/-!
The moves of a feed.

A move is what a user does, or the next step of a task together with the answer that it waits for:
of a source, of the file system, of the decoder. Tasks move in any order; between two moves of one
task any number of others may lie. A move that is not possible changes nothing: a task that cannot
go on stays where it is, and only who holds a manager can call it. After every move the managers
that nobody needs any more end.
-/

namespace RadarFeed

inductive FeedMove where
  /-- Somebody wants to hold the manager of a site. -/
  | hold (radarId : String)
  /-- Somebody lets a manager go. -/
  | release (manager : Nat)
  /-- The registry and the index of files are cleared. -/
  | cleanup
  /-- A request is made, with callbacks. -/
  | request (callbacks : List String)
  | load (manager : Nat) (source : LoadSource) (request : Option Nat)
  /-- The grids of a manager are computed. -/
  | grids (manager : Nat)
  /-- The machine of the volumes is enabled or disabled. -/
  | toggleVolumes (manager : Nat) (on : Bool)
  /-- Somebody needs the machine of a product. -/
  | machine (manager : Nat) (product : String)
  /-- The machine of a product is enabled or disabled, if the source offers the product. -/
  | toggleProduct (manager : Nat) (product : String) (on : Bool)
      (offered : Except SourceError (List String))
  | updateProducts (manager : Nat)
  | beginLoad (task : Nat) (found : KeyAnswer)
  | object (task : Nat) (answer : Except SourceError (List UInt8))
  | contents (task : Nat) (answer : Except FileError (List UInt8))
  | decoded (task : Nat) (outcome : DecodeOutcome) (remarks : List LogLine)
  /-- The grids that a load waits for are computed. -/
  | gridsReady (task : Nat)
  | answer (task : Nat)
  | cycleBegins (task : Nat)
  | cycleEnds (task : Nat) (answer : CycleAnswer)
  | timerEnds (task : Nat) (how : TimerEnd)
  /-- An update of products turns to the source. -/
  | productsAsked (task : Nat)
  /-- The source has answered, and offers these products. -/
  | productsListed (task : Nat) (answer : Except SourceError Unit) (available : List String)

namespace Feed

/-- Somebody lets a manager go. -/
def releaseHolder (f : Feed) (n : Nat) : Feed :=
  { f with holders := f.holders.erase n }

/-- Enables or disables a machine. -/
def toggle (f : Feed) (id : MachineId) (on : Bool) : Feed :=
  f.stepMachine id (if on then .enable else .disable)

/-- A line of the log about a machine. -/
def sayOf (f : Feed) (id : MachineId) (level : LogLevel) (text : String) : Feed :=
  match f.machine? id with
  | some r => f.say level (r.name ++ " " ++ text)
  | none => f

/-- Enables or disables the machine of a product, if the source offers it in some letter case. -/
def toggleProduct (f : Feed) (n : Nat) (product : String) (on : Bool) :
    Except SourceError (List String) → Feed
  | .error e => f.sayOf ⟨n, some product⟩ .warn ("Cannot list products: " ++ e.message)
  | .ok offered =>
    if offered.any fun p => Ascii.sameLetters p product then
      f.toggle ⟨n, some (Ascii.upper product)⟩ on
    else f.sayOf ⟨n, some product⟩ .debug "Product not offered"

/-- Starts an update of the list of products, the first time that one is wanted. -/
def updateProducts (f : Feed) (n : Nat) : Feed :=
  match f.manager? n with
  | none => f
  | some m =>
    if m.productsRequested then f
    else
      ((f.update n fun m => { m with productsRequested := true }).say .debug
        (m.radarId ++ ": Updating available products")).start (.products n false)

/-- An update of products turns to the source of the default product. -/
def productsAsked (f : Feed) (id : Nat) : Feed :=
  match f.work? id with
  | some (.products n false) =>
    (f.ensureMachine n f.settings.defaultLevel3Product).setWork id (.products n true)
  | _ => f

/-- Sorts the products that are offered into categories, and tells the subscribers. -/
def takeProducts (f : Feed) (n : Nat) (available : List String) : Feed :=
  let f := f.update n fun m => { m with categories := m.categories.update available }
  let categories := ((f.manager? n).map fun m => m.categories.length).getD 0
  let f := f.say .info (f.radarId n ++ ": " ++ toString available.length ++
    " Level 3 products in " ++ toString categories ++ " categories")
  f.update n fun m => { m with events := m.events.send .productsChanged }

/-- Ends an update of products. -/
def productsListed (f : Feed) (id : Nat) (answer : Except SourceError Unit)
    (available : List String) : Feed :=
  match f.work? id with
  | some (.products n true) =>
    let f := match answer with
      | .ok _ => f
      | .error e =>
        f.sayOf ⟨n, some f.settings.defaultLevel3Product⟩ .warn
          ("Cannot list products: " ++ e.message)
    (f.takeProducts n available).finish id
  | _ => f

/-- The cycle of a task gets its turn, if no other one of its machine has it. -/
def cycleBegins (f : Feed) (id : Nat) : Feed :=
  match f.work? id with
  | some (.cycle machine false) =>
    match f.machine? machine with
    | none => f.finish id
    | some r =>
      if r.inFlight then f
      else
        let f := f.stepMachine machine .cycleBegins
        if r.enabled then f.setWork id (.cycle machine true) else f.finish id
  | _ => f

/-- The cycle of a task ends with an answer of the source. -/
def cycleEnds (f : Feed) (id : Nat) (answer : CycleAnswer) : Feed :=
  match f.work? id with
  | some (.cycle machine true) => (f.finish id).stepMachine machine (.cycleEnds answer)
  | _ => f

/-- The timer of a task ends. -/
def timerEnds (f : Feed) (id : Nat) (how : TimerEnd) : Feed :=
  match f.work? id with
  | some (.timer machine token) => (f.finish id).stepMachine machine (.timerEnds token how)
  | _ => f

/-- A move, before the managers that nobody needs end. -/
def apply (f : Feed) : FeedMove → Feed
  | .hold radarId =>
    let (f, n) := f.manager radarId
    { f with holders := n :: f.holders }
  | .release n => f.releaseHolder n
  | .cleanup => { f with registry := .empty, files := .empty }
  | .request callbacks =>
    { f with requests := f.requests ++ [callbacks.foldl Request.onComplete .new] }
  | .load n source request => f.startLoad n source request
  | .grids n => f.computeGrids n
  | .toggleVolumes n on => f.toggle ⟨n, none⟩ on
  | .machine n product => f.ensureMachine n product
  | .toggleProduct n product on offered => f.toggleProduct n product on offered
  | .updateProducts n => f.updateProducts n
  | .beginLoad id found => f.beginLoad id found
  | .object id answer => f.takeObject id answer
  | .contents id answer => f.takeContents id answer
  | .decoded id outcome remarks => f.takeDecoded id outcome remarks
  | .gridsReady id => f.takeGrids id
  | .answer id => f.answer id
  | .cycleBegins id => f.cycleBegins id
  | .cycleEnds id answer => f.cycleEnds id answer
  | .timerEnds id how => f.timerEnds id how
  | .productsAsked id => f.productsAsked id
  | .productsListed id answer available => f.productsListed id answer available

/-- A request that can be given to a load: it is open, and no load has got it. -/
def isFree (f : Feed) (request : Nat) : Bool :=
  (f.requests[request]?.any fun r => r.callbacks.isSome) &&
    f.tasks.all fun t =>
      match t.work with
      | .load l => l.request ≠ some request
      | _ => true

/-- Whether a move is possible for those who make it: a manager is called by somebody who holds it,
and a load gets a request of its own. -/
def allows (f : Feed) : FeedMove → Bool
  | .load n _ request => f.holders.contains n && request.all f.isFree
  | .release n => f.holders.contains n
  | .grids n => f.holders.contains n
  | .toggleVolumes n _ => f.holders.contains n
  | .machine n _ => f.holders.contains n
  | .toggleProduct n _ _ _ => f.holders.contains n
  | .updateProducts n => f.holders.contains n
  | _ => true

def move (f : Feed) (m : FeedMove) : Feed :=
  if f.allows m then (f.apply m).sweep else f

/-- Moves one after the other. -/
def run (f : Feed) (moves : List FeedMove) : Feed :=
  moves.foldl move f

end Feed

end RadarFeed
