import RadarFeed.Rehearsal.Sources

/-!
Rehearsals: a feed that runs against a backdrop, one task at a time.

Tasks take turns in the order in which they stand in the list. A task runs until it ends or needs
something that takes time, and then goes to the end of the list; a task that cannot go on keeps its
place. A source of directories takes time for each part of a listing, so that of two tasks that
list directories the one with fewer names comes to its end first. A clock, which stands still
unless it is set forward, says which timers have elapsed.
-/

namespace RadarFeed

/-- The end of a timer on the clock. -/
structure Alarm where
  /-- The task of the timer. -/
  task : Nat
  /-- The millisecond at which it ends. -/
  due : Nat
  /-- The clock has reached the end. -/
  rung : Bool
deriving DecidableEq, Repr, Inhabited

/-- A task waits for its source. -/
structure Wait where
  task : Nat
  /-- How often it has to wait again after this time. -/
  left : Nat
deriving DecidableEq, Repr, Inhabited

structure Rehearsal where
  feed : Feed
  backdrop : Backdrop
  decoder : Decoder
  /-- How often the decoder was used. -/
  decodes : Nat
  /-- Milliseconds since the beginning. -/
  clock : Nat
  /-- The timers that run, in the order in which they were started. -/
  alarms : List Alarm
  /-- The tasks that wait for a source or have waited for one. -/
  waits : List Wait

namespace Rehearsal

/-- Makes a move. -/
def act (s : Rehearsal) (m : FeedMove) : Rehearsal :=
  { s with feed := s.feed.move m }

/-- Sends a task to the end of the list. -/
def park (s : Rehearsal) (id : Nat) : Rehearsal :=
  let (mine, others) := s.feed.tasks.partition fun t => t.id = id
  { s with feed := { s.feed with tasks := others ++ mine } }

/-- Lets a task wait for its source so many times, unless it gets its answer at once. -/
def await? (s : Rehearsal) (id : Nat) : Nat → Option Rehearsal
  | 0 => none
  | n + 1 =>
    let s := { s with waits := s.waits ++ [Wait.mk id n] }
    some (s.park id)

/-- Ends one time of waiting for a source, unless it is the last one. -/
def waitAgain? (s : Rehearsal) (id : Nat) : Option Rehearsal := do
  let wait ← s.waits.find? fun w => w.task = id
  let s := { s with waits := s.waits.filter fun w => w.task ≠ id }
  s.await? id wait.left

/-! ## Loads -/

/-- The machine whose source a load asks. -/
def machineOf (l : Load) : MachineId :=
  match l.source with
  | .object product _ => ⟨l.manager, product.map Ascii.upper⟩
  | _ => ⟨l.manager, none⟩

/-- The time that a load asks for. -/
def timeOf (l : Load) : Option Instant :=
  match l.source with
  | .object _ time => time
  | _ => none

/-- Fetches the object that a load has asked for. -/
def fetch (s : Rehearsal) (id : Nat) (l : Load) (key : String) : Rehearsal :=
  let (backdrop, answer) := s.backdrop.object s.feed (machineOf l) key
  { s with backdrop := backdrop }.act (.object id answer)

/-- Ends the turn of a load: it answers, or waits for what takes time. -/
def endTurn (s : Rehearsal) (id : Nat) : Rehearsal :=
  match s.feed.load? id with
  | none => s
  | some l =>
    match l.phase with
    | .answering _ => s.act (.answer id)
    | _ => s.park id

/-- Goes on with a load that may have asked a source, which answers at once unless it is slow. -/
def afterBegin (s : Rehearsal) (id : Nat) : Rehearsal :=
  match s.feed.load? id with
  | none => s
  | some l =>
    match l.phase with
    | .fetching key => if s.backdrop.isSlow then s.park id else (s.fetch id l key).endTurn id
    | _ => s.endTurn id

/-- The turn of a load, if it can go on. -/
def loadTurn (s : Rehearsal) (id : Nat) (l : Load) : Option Rehearsal :=
  match l.phase with
  | .waiting =>
    if s.feed.isLocked l.lock then none
    else
      let found := s.backdrop.find s.feed (machineOf l) (timeOf l)
      some ((s.act (.beginLoad id found)).afterBegin id)
  | .fetching key => some ((s.fetch id l key).endTurn id)
  | .reading =>
    let contents := match l.source with
      | .file path => s.backdrop.tree.read path
      | _ => .error .notFound
    some ((s.act (.contents id contents)).endTurn id)
  | .decoding bytes =>
    let s := { s with decodes := s.decodes + 1 }
    some ((s.act (.decoded id (s.decoder.decode bytes) (s.decoder.remarks bytes))).endTurn id)
  | .initializing _ _ => some ((s.act (.gridsReady id)).endTurn id)
  | .answering _ => some (s.act (.answer id))

/-! ## Machines -/

/-- The next instant. Looking twice at a running clock never gives one time. -/
def later (t : Instant) : Instant :=
  if t.nanos + 1 < nanosPerSecond then { t with nanos := t.nanos + 1 }
  else ⟨t.seconds + 1, 0⟩

/-- Ends a cycle with the answer of its source. -/
def answerCycle (s : Rehearsal) (id : Nat) (machine : MachineId) : Rehearsal :=
  let (backdrop, news) := s.backdrop.refresh s.feed machine
  let answer : CycleAnswer := ⟨news, backdrop.outlook s.feed machine, later backdrop.now⟩
  { s with backdrop := backdrop }.act (.cycleEnds id answer)

/-- The turn of a cycle, if it can go on. -/
def cycleTurn (s : Rehearsal) (id : Nat) (machine : MachineId) (asking : Bool) :
    Option Rehearsal :=
  if asking then some ((s.waitAgain? id).getD (s.answerCycle id machine))
  else if ((s.feed.machine? machine).map Refresher.inFlight).getD false then none
  else
    let s := s.act (.cycleBegins id)
    match s.feed.work? id with
    | some (.cycle _ true) =>
      some ((s.await? id (s.backdrop.refreshWaits s.feed machine)).getD (s.answerCycle id machine))
    | _ => some s

/-- The last second of the clock. -/
def lastSecond : Nat := 9223372036854775807

/-- The second at which the clock stands. It was past zero when the rehearsal began. -/
def second (s : Rehearsal) : Nat :=
  s.clock / 1000 + 1

/-- A span in milliseconds, a part of one counting as a whole. -/
def millis (d : Duration) : Nat :=
  (d.nanos + 999999) / 1000000

/-- The timer of a task. -/
def timer? (s : Rehearsal) (machine : MachineId) (token : Nat) : Option RefreshTimer := do
  (← s.feed.machine? machine).timers.find? fun t => t.token = token

def endTimer (s : Rehearsal) (id : Nat) (how : TimerEnd) : Rehearsal :=
  { s with alarms := s.alarms.filter fun a => a.task ≠ id }.act (.timerEnds id how)

/-- The turn of a timer, if it can go on: it starts to run, or it has ended. -/
def timerTurn (s : Rehearsal) (id : Nat) (machine : MachineId) (token : Nat) :
    Option Rehearsal :=
  match s.timer? machine token with
  | none => some (s.endTimer id .elapsed)
  | some timer =>
    if timer.cancelled then some (s.endTimer id .elapsed)
    else
      match s.alarms.find? fun a => a.task = id with
      | some alarm => if alarm.rung then some (s.endTimer id .elapsed) else none
      | none =>
        if lastSecond < s.second + timer.interval.seconds then some (s.endTimer id .unreachable)
        else
          let alarm : Alarm := ⟨id, s.clock + millis timer.interval, false⟩
          some { s with alarms := s.alarms ++ [alarm] }

/-! ## Lists of products -/

/-- The machine whose source lists the products of a manager. -/
def listingMachine (f : Feed) (n : Nat) : MachineId :=
  ⟨n, some (Ascii.upper f.settings.defaultLevel3Product)⟩

/-- Ends an update of products with the answer of the source. -/
def answerProducts (s : Rehearsal) (id n : Nat) : Rehearsal :=
  let machine := listingMachine s.feed n
  let (backdrop, answer) := s.backdrop.requestProducts s.feed machine
  { s with backdrop := backdrop }.act
    (.productsListed id answer (backdrop.products s.feed machine))

/-- The turn of an update of products. -/
def productsTurn (s : Rehearsal) (id n : Nat) (asking : Bool) : Rehearsal :=
  if asking then (s.waitAgain? id).getD (s.answerProducts id n)
  else
    let s := s.act (.productsAsked id)
    let waits := s.backdrop.productsWaits s.feed (listingMachine s.feed n)
    (s.await? id waits).getD (s.answerProducts id n)

/-! ## Turns -/

/-- The turn of a task, if it can go on. -/
def turn (s : Rehearsal) (t : Task) : Option Rehearsal :=
  match t.work with
  | .load l => s.loadTurn t.id l
  | .cycle machine asking => s.cycleTurn t.id machine asking
  | .timer machine token => s.timerTurn t.id machine token
  | .products n asking => some (s.productsTurn t.id n asking)

/-- A task goes on without something that takes time. -/
def isReady (t : Task) : Bool :=
  match t.work with
  | .load l => !l.holdsLock
  | .cycle _ asking => !asking
  | .timer _ _ => true
  | .products _ asking => !asking

/-- The turn of the first task that can go on, among those that `p` accepts. -/
def next (s : Rehearsal) (p : Task → Bool) : Option Rehearsal :=
  (s.feed.tasks.filter p).findSome? s.turn

/-- Turns of tasks that `p` accepts, until `stop` or until none can go on; at most `left` turns. -/
def runWhile (p : Task → Bool) (stop : Rehearsal → Bool) : Nat → Rehearsal → Rehearsal
  | 0, s => s
  | left + 1, s =>
    if stop s then s
    else
      match s.next p with
      | some s => runWhile p stop left s
      | none => s

/-- More turns than tasks can take: a load takes at most five, a cycle three and its timer two,
and whatever waits for a listing takes one more for each part of it. -/
def turnsLeft (s : Rehearsal) : Nat :=
  (s.backdrop.tree.places.length / Backdrop.partSize + 16) * (s.feed.tasks.length + 1)

/-- Turns until no task can go on. -/
def settle (s : Rehearsal) : Rehearsal :=
  runWhile (fun _ => true) (fun _ => false) s.turnsLeft s

/-- A request has been completed or dropped. -/
def isSettled (request : Nat) (s : Rehearsal) : Bool :=
  match s.feed.requests[request]? with
  | some r => r.callbacks.isNone
  | none => true

/-- Turns of those tasks that need no time, until none of them can go on. -/
def runReady (s : Rehearsal) : Rehearsal :=
  runWhile isReady (fun _ => false) s.turnsLeft s

/-- Turns until a request is settled, and of those tasks that need no time. -/
def await (s : Rehearsal) (request : Nat) : Rehearsal :=
  (runWhile (fun _ => true) (isSettled request) s.turnsLeft s).runReady

/-- What happens while one waits so many times for something that takes time: each time, whoever
waits for such a thing gets it, and the other tasks go on as far as they can. -/
def meanwhile : Nat → Rehearsal → Rehearsal
  | 0, s => s
  | times + 1, s =>
    let s := s.runReady
    let waiting := (s.feed.tasks.filter fun t => !isReady t).map Task.id
    let s := waiting.foldl (fun s id =>
      ((s.feed.tasks.find? fun t => t.id = id).bind s.turn).getD s) s
    meanwhile times s.runReady

/-! ## The clock -/

/-- Sets the clock forward. The timers that have elapsed get their turns in the order of their
ends. -/
def setForward (s : Rehearsal) (millis : Nat) : Rehearsal :=
  let clock := s.clock + millis
  let due := (s.alarms.filter fun a => !a.rung && a.due ≤ clock).mergeSort fun a b => a.due ≤ b.due
  let s := { s with
    clock := clock
    alarms := s.alarms.map fun a => if a.due ≤ clock then { a with rung := true } else a }
  due.foldl (fun s a => s.park a.task) s

end Rehearsal

end RadarFeed
