import Mathlib.Tactic.ByContra
import Mathlib.Tactic.SplitIfs
import RadarFeed.Refresh.Interval

/-!
The interval to the next cycle, in exact numbers.

The instants of a calendar lie so close together that the span between two of them is small against
the longest span that there is (`InRange.since_le`). An interval is therefore missing only at
the upper end: where the update period fits but the time until the next object does not
(`nextInterval_eq_none_iff`). Everywhere else it is the greater of the retry interval and the exact
time until the next object, or the retry interval where nothing can be expected
(`nextInterval_exact_iff`).
-/

namespace RadarFeed

namespace Instant

variable {s t : Instant}

/-- A point in time of the calendar, a leap second included. -/
structure InRange (t : Instant) : Prop where
  least : minSeconds ≤ t.seconds
  most : t.seconds ≤ maxSeconds
  nanos : t.nanos < 2 * nanosPerSecond

/-- The span between the ends of the calendar, in nanoseconds. -/
def calendarSpan : Int :=
  (maxSeconds - minSeconds + 3) * nanosPerSecond

/-- Outside leap seconds a span is the difference of two nanosecond counts. -/
theorem since_eq_sub (hs : s.nanos < nanosPerSecond) (ht : t.nanos < nanosPerSecond) :
    t.since s = t.stamp - s.stamp := by
  simp only [since]
  split_ifs <;> omega

/-- A leap second changes a span by a second at most. -/
theorem since_bounds (s t : Instant) : t.stamp - s.stamp - nanosPerSecond ≤ t.since s ∧
    t.since s ≤ t.stamp - s.stamp + nanosPerSecond := by
  simp only [since]
  split_ifs <;> omega

theorem InRange.since_le (hs : s.InRange) (ht : t.InRange) :
    -calendarSpan ≤ t.since s ∧ t.since s ≤ calendarSpan := by
  have hbounds := since_bounds s t
  have hs₁ := hs.least
  have hs₂ := hs.most
  have hs₃ := hs.nanos
  have ht₁ := ht.least
  have ht₂ := ht.most
  have ht₃ := ht.nanos
  simp only [calendarSpan, stamp, nanosPerSecond, minSeconds, maxSeconds] at *
  omega

theorem calendarSpan_le_maxSpan : calendarSpan ≤ maxSpan := by
  decide

end Instant

open Instant

variable {retry interval : Duration} {o : Outlook} {now t : Instant}

/-! ## The three ways to an interval -/

/-- Nothing can be expected: no object is known, or the period between two is beyond all spans. -/
theorem nextInterval_of_unknown (h : o.lastModified = none ∨ maxSpan < o.updatePeriod.nanos) :
    nextInterval retry o now = some retry := by
  rcases h with h | h
  · simp [nextInterval, h]
  · cases ht : o.lastModified with
    | none => simp [nextInterval, ht]
    | some t => simp [nextInterval, ht, h]

section
variable (ht : o.lastModified = some t) (hp : o.updatePeriod.nanos ≤ maxSpan)
include ht hp

/-- The time until the next object is within the spans. -/
theorem nextInterval_of_fits (retry : Duration) (hge : -maxSpan ≤ expectedIn o t now)
    (hle : expectedIn o t now ≤ maxSpan) :
    ∃ interval, nextInterval retry o now = some interval ∧
      (interval.nanos : Int) = max (retry.nanos : Int) (expectedIn o t now) := by
  have hspan : ¬ (expectedIn o t now < -maxSpan ∨ maxSpan < expectedIn o t now) := by omega
  simp only [nextInterval, ht, if_neg (Int.not_lt.2 hp), if_neg hspan]
  by_cases hretry : (retry.nanos : Int) ≤ expectedIn o t now
  · refine ⟨_, if_pos hretry, ?_⟩
    show ((expectedIn o t now).toNat : Int) = _
    omega
  · refine ⟨_, if_neg hretry, ?_⟩
    omega

/-- The time until the next object is beyond all spans. -/
theorem nextInterval_of_exceeds (h : expectedIn o t now < -maxSpan ∨ maxSpan < expectedIn o t now) :
    nextInterval retry o now = none := by
  simp only [nextInterval, ht, if_neg (Int.not_lt.2 hp), if_pos h]

end

/-- The interval to the next cycle is not below the retry interval. -/
theorem retry_le_of_nextInterval (h : nextInterval retry o now = some interval) :
    retry.nanos ≤ interval.nanos := by
  by_cases hunknown : o.lastModified = none ∨ maxSpan < o.updatePeriod.nanos
  · rw [nextInterval_of_unknown hunknown] at h
    obtain rfl := Option.some.inj h
    exact Nat.le_refl _
  · rw [not_or, Int.not_lt] at hunknown
    obtain ⟨hsome, hp⟩ := hunknown
    obtain ⟨t, ht⟩ := Option.ne_none_iff_exists'.1 hsome
    by_cases hspan : expectedIn o t now < -maxSpan ∨ maxSpan < expectedIn o t now
    · rw [nextInterval_of_exceeds ht hp hspan] at h
      cases h
    · rw [not_or, Int.not_lt, Int.not_lt] at hspan
      obtain ⟨i, hi, hmax⟩ := nextInterval_of_fits ht hp retry hspan.1 hspan.2
      rw [hi] at h
      obtain rfl := Option.some.inj h
      omega

/-! ## Instants of the calendar -/

/-- The update period is a span, but the time until the next object exceeds all of them. -/
def Overruns (o : Outlook) (now : Instant) : Prop :=
  ∃ t, o.lastModified = some t ∧ o.updatePeriod.nanos ≤ maxSpan ∧
    maxSpan < o.updatePeriod.nanos - now.since t

/-- At the lower end there is always room. -/
theorem neg_maxSpan_le_expectedIn (ht : t.InRange) (hnow : now.InRange) :
    -maxSpan ≤ expectedIn o t now := by
  have hspan := (ht.since_le hnow).2
  have hmax := calendarSpan_le_maxSpan
  rw [expectedIn]
  omega

theorem nextInterval_eq_none_iff (hnow : now.InRange)
    (hlast : ∀ t, o.lastModified = some t → t.InRange) :
    nextInterval retry o now = none ↔ Overruns o now := by
  constructor
  · intro h
    by_contra hno
    by_cases hunknown : o.lastModified = none ∨ maxSpan < o.updatePeriod.nanos
    · rw [nextInterval_of_unknown hunknown] at h
      cases h
    · rw [not_or, Int.not_lt] at hunknown
      obtain ⟨hsome, hp⟩ := hunknown
      obtain ⟨t, ht⟩ := Option.ne_none_iff_exists'.1 hsome
      have hle : expectedIn o t now ≤ maxSpan := by
        by_contra hgt
        exact hno ⟨t, ht, hp, Int.not_le.1 hgt⟩
      obtain ⟨i, hi, -⟩ := nextInterval_of_fits ht hp retry
        (neg_maxSpan_le_expectedIn (hlast t ht) hnow) hle
      rw [hi] at h
      cases h
  · rintro ⟨t, ht, hp, hgt⟩
    exact nextInterval_of_exceeds ht hp (.inr hgt)

/-- **The interval is exact unless it overruns.** At any time of the calendar, and whatever the
source says of its newest object,
* there is no interval exactly if the update period is a span but the time until the next object
  exceeds all of them, which takes a period longer than all spans less that of the calendar;
* otherwise, with an object whose time is known and a period that is a span, the interval is the
  greater of the retry interval and the period less the age of the object;
* without such an object or period it is the retry interval;
* it is never below the retry interval.
Outside leap seconds the age of an object is the difference of two nanosecond counts. -/
theorem nextInterval_exact_iff (retry : Duration) (o : Outlook) (now : Instant)
    (hnow : now.InRange) (hlast : ∀ t, o.lastModified = some t → t.InRange) :
    (nextInterval retry o now = none ↔ Overruns o now) ∧
    (Overruns o now → maxSpan - calendarSpan < o.updatePeriod.nanos) ∧
    (∀ t, o.lastModified = some t → o.updatePeriod.nanos ≤ maxSpan → ¬ Overruns o now →
      ∃ interval, nextInterval retry o now = some interval ∧
        (interval.nanos : Int) = max (retry.nanos : Int) (o.updatePeriod.nanos - now.since t)) ∧
    (o.lastModified = none ∨ maxSpan < o.updatePeriod.nanos →
      nextInterval retry o now = some retry) ∧
    (∀ interval, nextInterval retry o now = some interval → retry.nanos ≤ interval.nanos) ∧
    ∀ t, o.lastModified = some t → t.nanos < nanosPerSecond → now.nanos < nanosPerSecond →
      now.since t = now.stamp - t.stamp := by
  refine ⟨nextInterval_eq_none_iff hnow hlast, ?_, ?_, nextInterval_of_unknown,
    fun _ => retry_le_of_nextInterval, fun _ _ ht hn => since_eq_sub ht hn⟩
  · rintro ⟨t, ht, -, hgt⟩
    have hspan := ((hlast t ht).since_le hnow).1
    omega
  · intro t ht hp hno
    refine nextInterval_of_fits ht hp retry (neg_maxSpan_le_expectedIn (hlast t ht) hnow) ?_
    by_contra hgt
    exact hno ⟨t, ht, hp, Int.not_le.1 hgt⟩

/-- A source with an object every 300 seconds, of which the newest is 60 seconds old. -/
theorem nextInterval_exact_of_minuteOld :
    let o : Outlook := ⟨none, none, some ⟨1714565400, 0⟩, .ofSeconds 300⟩
    let now : Instant := ⟨1714565460, 0⟩
    (now.InRange ∧ ∀ t, o.lastModified = some t → t.InRange) ∧
      ∃ interval, nextInterval (.ofSeconds 15) o now = some interval ∧
        interval.nanos = 240 * nanosPerSecond := by
  intro o now
  have hnow : now.InRange := ⟨by decide, by decide, by decide⟩
  have hlast : ∀ t, o.lastModified = some t → t.InRange := by
    rintro t ⟨⟩
    exact ⟨by decide, by decide, by decide⟩
  refine ⟨⟨hnow, hlast⟩, ?_⟩
  obtain ⟨-, hlong, hexact, -⟩ := nextInterval_exact_iff (.ofSeconds 15) o now hnow hlast
  have hfits : ¬ Overruns o now := fun h => absurd (hlong h) (by decide)
  obtain ⟨interval, hinterval, hmax⟩ := hexact _ rfl (by decide) hfits
  have hvalue : max ((Duration.ofSeconds 15).nanos : Int)
      (o.updatePeriod.nanos - now.since ⟨1714565400, 0⟩) = 240 * nanosPerSecond := by
    decide
  exact ⟨interval, hinterval, by omega⟩

/-- With the longest period of whole seconds and an object dated 100 seconds ahead there is no
interval. -/
theorem nextInterval_missing_ahead :
    let o : Outlook := ⟨none, none, some ⟨1714565500, 0⟩, .ofSeconds 9223372036854775⟩
    let now : Instant := ⟨1714565400, 0⟩
    (o.updatePeriod.nanos : Int) ≤ maxSpan ∧ now.InRange ∧
      nextInterval (.ofSeconds 15) o now = none := by
  intro o now
  exact ⟨by decide, ⟨by decide, by decide, by decide⟩, by decide⟩

end RadarFeed
