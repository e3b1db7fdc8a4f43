import RadarFeed.Log
import RadarFeed.Product.Group
import RadarFeed.Refresh.Interval

/-!
The machine that asks a source for news, again and again.

While it is enabled, cycles of asking and timers take turns. A cycle waits for its turn in a queue,
asks the source, and at its end arms a timer, whose end queues the next cycle. `Refresher.step` is
one step of the machine; the steps of cycles and timers come in any order, among each other and
with those of the user. Only the timer whose token is armed counts: a timer that is superseded or
disabled is cancelled, and ends without effect.
-/

namespace RadarFeed

/-- What a user sees of a machine. -/
inductive RefreshStatus where
  | disabled
  /-- A timer runs until the next cycle. -/
  | scheduled
  /-- A cycle waits for its turn or asks the source. -/
  | refreshing
deriving DecidableEq, Repr

/-- The status as users read it. -/
def RefreshStatus.name : RefreshStatus → String
  | disabled => "Disabled"
  | scheduled => "Scheduled"
  | refreshing => "Refreshing"

/-- What the subscribers of a site are told. -/
inductive ProductEvent where
  /-- A source has a new object. -/
  | newData (group : ProductGroup) (product : Option String) (time : Instant)
  /-- The products of a site are known anew. -/
  | productsChanged
deriving DecidableEq, Repr

/-- A timer that has not ended. -/
structure RefreshTimer where
  token : Nat
  interval : Duration
  cancelled : Bool
deriving DecidableEq, Repr, Inhabited

/-- How the waiting of a timer ends. -/
inductive TimerEnd where
  | elapsed
  /-- The end of the interval is beyond all points in time. -/
  | unreachable
deriving DecidableEq, Repr

/-- What a source answers to a cycle. -/
structure CycleAnswer where
  news : Except SourceError News
  /-- What the source says of its newest object by then. -/
  outlook : Outlook
  /-- The time at which the answer is used. -/
  now : Instant

/-- A machine, and its cycles and timers. -/
structure Refresher where
  radarId : String
  /-- The product that is asked for; the volumes of a site have none. -/
  product : Option String
  /-- The time until a source without news is asked again. -/
  retry : Duration
  enabled : Bool
  /-- A cycle is wanted. -/
  refreshing : Bool
  /-- The token of the timer that counts. -/
  armed : Option Nat
  /-- The interval of the timer that was last armed. -/
  interval : Option Duration
  /-- The timers that have not ended. -/
  timers : List RefreshTimer
  /-- The number of cycles that wait for their turn. -/
  queued : Nat
  /-- A cycle has its turn and asks the source. -/
  inFlight : Bool
  /-- The token of the next timer. -/
  nextToken : Nat
deriving Inhabited

/-- What a step of a machine does besides changing its state. -/
inductive RefreshEffect where
  | log (line : LogLine)
  | event (e : ProductEvent)
  /-- A cycle has been queued. -/
  | cycle
  /-- A timer has been armed. -/
  | timer (token : Nat)
deriving Repr

/-- A step of a machine. -/
inductive RefreshMove where
  | enable
  | disable
  /-- A cycle is started at once, whatever the timer. -/
  | refresh
  /-- The first cycle in the queue gets its turn. -/
  | cycleBegins
  /-- The cycle that has its turn gets its answer and ends. -/
  | cycleEnds (answer : CycleAnswer)
  | timerEnds (token : Nat) (how : TimerEnd)

namespace Refresher

/-- A machine that is disabled. -/
def new (radarId : String) (product : Option String) (retry : Duration) : Refresher :=
  ⟨radarId, product, retry, false, false, none, none, [], 0, false, 0⟩

/-- The group of the objects of a machine. -/
def group (r : Refresher) : ProductGroup :=
  if r.product.isSome then .level3 else .level2

/-- A machine as users read it. -/
def name (r : Refresher) : String :=
  let product := match r.product with
    | some p => ", " ++ p
    | none => ""
  "[" ++ r.radarId ++ ", " ++ r.group.display ++ product ++ "]"

/-- The status of a machine. -/
def status (r : Refresher) : RefreshStatus :=
  if !r.enabled then .disabled
  else if r.refreshing then .refreshing
  else .scheduled

/-- A line of the log about a machine. -/
def line (r : Refresher) (level : LogLevel) (text : String) : RefreshEffect :=
  .log ⟨level, r.name ++ " " ++ text⟩

/-- Cancels the timer that is armed. -/
def cancel (r : Refresher) : Refresher :=
  { r with
    armed := none
    timers := r.timers.map fun t =>
      if r.armed = some t.token then { t with cancelled := true } else t }

/-- Queues a cycle. -/
def requestCycle (r : Refresher) : Refresher × List RefreshEffect :=
  ({ r.cancel with refreshing := true, queued := r.queued + 1 }, [.cycle])

/-- Enables a machine. -/
def enable (r : Refresher) : Refresher × List RefreshEffect :=
  if r.enabled then (r, [])
  else
    let (r, effects) := { r with enabled := true }.requestCycle
    (r, r.line .debug "Refresh enabled" :: effects)

/-- Disables a machine. -/
def disable (r : Refresher) : Refresher × List RefreshEffect :=
  if r.enabled then
    ({ r.cancel with enabled := false }, [r.line .debug "Refresh disabled"])
  else (r.cancel, [])

/-- Arms a timer, if the machine is still enabled. -/
def schedule (r : Refresher) (interval : Duration) : Refresher × List RefreshEffect :=
  let r := { r with refreshing := false }
  if r.enabled then
    let token := r.nextToken
    let cancelled := r.cancel
    ({ cancelled with
        armed := some token
        interval := some interval
        timers := cancelled.timers ++ [⟨token, interval, false⟩]
        nextToken := token + 1 },
      [r.line .debug ("Scheduled refresh in " ++ interval.clockText), .timer token])
  else (r, [])

/-- Tells the subscribers of the newest object. -/
def announce (r : Refresher) (o : Outlook) : List RefreshEffect :=
  match o.latestKey, o.latestTime with
  | none, _ => []
  | some key, none => [r.line .warn ("No time in key " ++ key)]
  | some key, some time =>
    [r.line .info ("New data: " ++ key), .event (.newData r.group r.product time)]

/-- Gives the first cycle in the queue its turn. A machine that is disabled asks no source. -/
def cycleBegins (r : Refresher) : Refresher × List RefreshEffect :=
  if r.queued = 0 ∨ r.inFlight then (r, [])
  else if r.enabled then
    ({ r with queued := r.queued - 1, inFlight := true }, [r.line .trace "Refreshing"])
  else ({ r with queued := r.queued - 1, refreshing := false }, [])

/-- Ends a cycle that found news. Where the next interval cannot be computed, the cycle breaks
off. -/
def takeNews (r : Refresher) (count : Nat) (answer : CycleAnswer) :
    Refresher × List RefreshEffect :=
  let found := r.line .debug (toString count ++ " new objects")
  match nextInterval r.retry answer.outlook answer.now with
  | none => (r, [found])
  | some interval =>
    let (s, effects) := r.schedule interval
    (s, found :: r.announce answer.outlook ++ effects)

/-- Ends the cycle that has its turn. -/
def cycleEnds (r : Refresher) (answer : CycleAnswer) : Refresher × List RefreshEffect :=
  if r.inFlight then
    let r := { r with inFlight := false }
    match answer.news with
    | .error e =>
      let (s, effects) := r.schedule r.retry
      (s, r.line .warn ("Refresh failed: " ++ e.message) :: effects)
    | .ok ⟨0, 0⟩ =>
      let (s, effects) := { r with refreshing := false }.disable
      (s, r.line .info "No objects found, disabling refresh" :: effects)
    | .ok ⟨0, _⟩ => r.schedule r.retry
    | .ok ⟨count, _⟩ => r.takeNews count answer
  else (r, [])

def timerEnds (r : Refresher) (token : Nat) (how : TimerEnd) : Refresher × List RefreshEffect :=
  match r.timers.find? fun t => t.token = token with
  | none => (r, [])
  | some timer =>
    let r := { r with timers := r.timers.filter fun t => t.token ≠ token }
    if timer.cancelled then (r, [r.line .trace "Timer cancelled"])
    else
      match how with
      | .elapsed => r.requestCycle
      | .unreachable =>
        let (s, effects) := r.disable
        (s, r.line .error ("Timer error: Refresh deadline " ++ timer.interval.secondsText ++
          " from now cannot be represented") :: effects)

/-- One step of a machine. -/
def step (r : Refresher) : RefreshMove → Refresher × List RefreshEffect
  | .enable => r.enable
  | .disable => r.disable
  | .refresh => r.requestCycle
  | .cycleBegins => r.cycleBegins
  | .cycleEnds answer => r.cycleEnds answer
  | .timerEnds token how => r.timerEnds token how

/-- Something of a machine has not ended: a timer or a cycle. -/
def isBusy (r : Refresher) : Bool :=
  !r.timers.isEmpty || r.queued ≠ 0 || r.inFlight

end Refresher

end RadarFeed
