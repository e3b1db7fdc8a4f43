import RadarFeed.Source.Error
import RadarFeed.Text.Digits

/-!
When a source is asked for news again.

The next object is expected one update period after the newest one was made, but a source is never
asked again before the retry interval is over. The span to the next object is computed in a type of
limited range; beyond it there is no answer.
-/

namespace RadarFeed

/-- The longest span that has an interval, in nanoseconds: as many milliseconds as a
signed number of 64 bits holds. -/
def maxSpan : Int := 9223372036854775807 * 1000000

/-- The time until the next object is expected. -/
def expectedIn (o : Outlook) (lastModified now : Instant) : Int :=
  o.updatePeriod.nanos - now.since lastModified

/-- The interval after which a source that had news is asked again. -/
def nextInterval (retry : Duration) (o : Outlook) (now : Instant) : Option Duration :=
  match o.lastModified with
  | none => some retry
  | some lastModified =>
    if maxSpan < o.updatePeriod.nanos then some retry
    else
      let span := expectedIn o lastModified now
      if span < -maxSpan ∨ maxSpan < span then none
      else if retry.nanos ≤ span then some ⟨span.toNat⟩
      else some retry

namespace Duration

/-- A span in minutes and seconds. -/
def clockText (d : Duration) : String :=
  Text.padded 2 (d.seconds / 60) ++ ":" ++ Text.padded 2 (d.seconds % 60)

/-- A span in whole seconds. -/
def secondsText (d : Duration) : String :=
  toString d.seconds ++ "s"

end Duration

end RadarFeed
