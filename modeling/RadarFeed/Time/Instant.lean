/-!
Points in time and spans between them.

An `Instant` is a count of seconds from 1970-01-01T00:00:00Z and nanoseconds within the second. A
leap second has no count of its own: it is its predecessor with a billion nanoseconds or more. The
order is that of the pairs. `truncate` drops the part below the second, `since` is the span between
two instants, in which the leap second of the earlier or later day is counted once it is over.
-/

namespace RadarFeed

def nanosPerSecond : Nat := 1000000000

def secondsPerDay : Nat := 86400

/-- A span of time that is not negative. -/
structure Duration where
  /-- Its length in nanoseconds. -/
  nanos : Nat
deriving DecidableEq, Repr, Inhabited

namespace Duration

/-- A span of whole seconds. -/
def ofSeconds (n : Nat) : Duration :=
  ⟨n * nanosPerSecond⟩

/-- The whole seconds of a span. -/
def seconds (d : Duration) : Nat :=
  d.nanos / nanosPerSecond

/-- The nanoseconds of a span beyond its whole seconds. -/
def subsecond (d : Duration) : Nat :=
  d.nanos % nanosPerSecond

end Duration

/-- A point in time. -/
structure Instant where
  /-- Seconds from 1970-01-01T00:00:00Z, leap seconds not counted. -/
  seconds : Int
  /-- Nanoseconds within the second, a billion or more within a leap second. -/
  nanos : Nat
deriving DecidableEq, Repr, Inhabited

namespace Instant

instance : LT Instant where
  lt a b := a.seconds < b.seconds ∨ (a.seconds = b.seconds ∧ a.nanos < b.nanos)

instance : LE Instant where
  le a b := a.seconds < b.seconds ∨ (a.seconds = b.seconds ∧ a.nanos ≤ b.nanos)

theorem lt_def {a b : Instant} :
    a < b ↔ a.seconds < b.seconds ∨ (a.seconds = b.seconds ∧ a.nanos < b.nanos) := Iff.rfl

theorem le_def {a b : Instant} :
    a ≤ b ↔ a.seconds < b.seconds ∨ (a.seconds = b.seconds ∧ a.nanos ≤ b.nanos) := Iff.rfl

instance (a b : Instant) : Decidable (a < b) :=
  decidable_of_iff _ lt_def.symm

instance (a b : Instant) : Decidable (a ≤ b) :=
  decidable_of_iff _ le_def.symm

theorem ext_iff' {a b : Instant} : a = b ↔ a.seconds = b.seconds ∧ a.nanos = b.nanos := by
  cases a; cases b; simp

theorem lt_irrefl (a : Instant) : ¬ a < a := by
  rw [lt_def]; omega

theorem lt_trans {a b c : Instant} (h : a < b) (k : b < c) : a < c := by
  rw [lt_def] at *; omega

theorem not_lt {a b : Instant} : ¬ a < b ↔ b ≤ a := by
  rw [lt_def, le_def]; omega

theorem not_le {a b : Instant} : ¬ a ≤ b ↔ b < a := by
  rw [lt_def, le_def]; omega

theorem le_refl (a : Instant) : a ≤ a := by
  rw [le_def]; omega

theorem le_of_lt {a b : Instant} (h : a < b) : a ≤ b := by
  rw [lt_def] at h; rw [le_def]; omega

theorem le_trans {a b c : Instant} (h : a ≤ b) (k : b ≤ c) : a ≤ c := by
  rw [le_def] at *; omega

theorem lt_of_le_of_ne {a b : Instant} (h : a ≤ b) (k : a ≠ b) : a < b := by
  rw [le_def] at h; rw [Ne, ext_iff'] at k; rw [lt_def]; omega

theorem le_antisymm {a b : Instant} (h : a ≤ b) (k : b ≤ a) : a = b := by
  rw [le_def] at *; rw [ext_iff']; omega

/-- Nanoseconds from 1970-01-01T00:00:00Z. -/
def stamp (t : Instant) : Int :=
  t.seconds * nanosPerSecond + t.nanos

/-- The nanosecond count of an instant is used only where it is a signed 64 bit number. -/
def hasStamp (t : Instant) : Bool :=
  -9223372036854775808 ≤ t.stamp && t.stamp ≤ 9223372036854775807

/-- The instant `n` nanoseconds before `t`, for an `n` below the nanoseconds of `t`. -/
def back (t : Instant) (n : Nat) : Instant :=
  { t with nanos := t.nanos - n }

/-- The whole second of `t`. An instant whose nanosecond count is out of range stays as it is. -/
def truncate (t : Instant) : Instant :=
  if t.hasStamp then t.back (t.nanos % nanosPerSecond) else t

theorem truncate_truncate (t : Instant) : t.truncate.truncate = t.truncate := by
  by_cases h : t.hasStamp = true
  · have hn : (t.nanos - t.nanos % nanosPerSecond) % nanosPerSecond = 0 := by
      rw [nanosPerSecond]; omega
    rw [truncate.eq_def t, if_pos h]
    unfold truncate
    split
    · simp only [back, hn, Nat.sub_zero]
    · rfl
  · rw [truncate.eq_def t, if_neg h, truncate, if_neg h]

/-- The first and last second that an instant can have. -/
def minSeconds : Int := -8334601228800

/-- The last second that an instant can have. -/
def maxSeconds : Int := 8210266876799

/-- How many nanoseconds a second has room for. The last one of a minute may hold a leap second. -/
def nanosWithin (seconds : Int) : Nat :=
  if seconds.fmod 60 = 59 then 2 * nanosPerSecond else nanosPerSecond

/-- The instant of a count of seconds and nanoseconds, if both are in range. -/
def ofSeconds? (seconds : Int) (nanos : Nat) : Option Instant :=
  if minSeconds ≤ seconds ∧ seconds ≤ maxSeconds ∧ nanos < nanosWithin seconds then
    some ⟨seconds, nanos⟩
  else none

theorem nanosPerSecond_le_nanosWithin (seconds : Int) : nanosPerSecond ≤ nanosWithin seconds := by
  unfold nanosWithin
  split
  · exact Nat.le_mul_of_pos_left nanosPerSecond (by decide)
  · exact Nat.le_refl _

/-- Below a whole second the nanoseconds are never out of range. -/
theorem ofSeconds?_of_lt {seconds : Int} {nanos : Nat} (h : nanos < nanosPerSecond) :
    ofSeconds? seconds nanos =
      if minSeconds ≤ seconds ∧ seconds ≤ maxSeconds then some ⟨seconds, nanos⟩ else none := by
  have hnanos : nanos < nanosWithin seconds :=
    Nat.lt_of_lt_of_le h (nanosPerSecond_le_nanosWithin seconds)
  simp only [ofSeconds?, hnanos, and_true]

/-- The instant of a count of milliseconds, if it is in range. -/
def ofMillis? (millis : Int) : Option Instant :=
  ofSeconds? (millis.fdiv 1000) ((millis.fmod 1000).toNat * 1000000)

def secondOfDay (t : Instant) : Int :=
  t.seconds.fmod secondsPerDay

/-- The span from `s` to `t` in nanoseconds. A leap second counts when the clock of one of the two
is past the time of day at which the other lies within it. -/
def since (t s : Instant) : Int :=
  let leap : Int :=
    if s.secondOfDay < t.secondOfDay ∧ nanosPerSecond ≤ s.nanos then 1
    else if t.secondOfDay < s.secondOfDay ∧ nanosPerSecond ≤ t.nanos then -1
    else 0
  t.stamp - s.stamp + leap * nanosPerSecond

end Instant

end RadarFeed
