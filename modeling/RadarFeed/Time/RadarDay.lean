import RadarFeed.Time.Instant

/-!
The clock of radar messages: a day number, in which 1 January 1970 is day 1, and milliseconds from
the midnight that begins that day. The milliseconds may exceed a day.
-/

namespace RadarFeed

/-- Why a day and its milliseconds are no time. -/
inductive RadarDayError where
  /-- There is no day 0. -/
  | dayZero
  /-- The count of seconds is beyond the last year. -/
  | outOfRange (seconds : Int)
deriving DecidableEq, Repr

/-- The instant of a radar day and milliseconds from its midnight. -/
def radarTime (day millis : Nat) : Except RadarDayError Instant :=
  if day = 0 then .error .dayZero
  else
    let seconds : Int := (day - 1 : Int) * secondsPerDay + (millis / 1000 : Nat)
    match Instant.ofSeconds? seconds (millis % 1000 * 1000000) with
    | some t => .ok t
    | none => .error (.outOfRange seconds)

def Instant.radarDay (t : Instant) : Int :=
  t.seconds.fdiv secondsPerDay + 1

/-- The milliseconds of an instant from the midnight of its day. -/
def Instant.radarMillis (t : Instant) : Int :=
  t.secondOfDay * 1000 + t.nanos / 1000000

end RadarFeed
