import Mathlib.Order.Bounds.Defs
import Mathlib.Tactic.ByContra
import RadarFeed.Time.Instant

/-!
Whole seconds.

`truncate` goes back within the second, never forward (`truncate_le`). From 1970 on, an instant that
is its own truncation and lies between the truncation of `t` and `t` is that truncation
(`eq_truncate_of_between`), also where nanosecond counts run out of range. There `truncate` leaves
the part below the second: an instant that it leads to the beginning of its second `Rounds`
(`isGreatest_truncate_iff`), and two instants of one second have one truncation only if both do
(`SameSecond.truncate_eq_iff`).
-/

namespace RadarFeed.Instant

variable {k t : Instant}

/-- The beginning of 1970. -/
def epoch : Instant := ⟨0, 0⟩

theorem epoch_le_iff : epoch ≤ t ↔ 0 ≤ t.seconds := by
  rw [le_def]
  simp only [epoch]
  omega

theorem ne_of_lt (h : k < t) : k ≠ t := by
  rintro rfl
  exact lt_irrefl k h

theorem hasStamp_iff : t.hasStamp = true ↔
    -9223372036854775808 ≤ t.stamp ∧ t.stamp ≤ 9223372036854775807 := by
  simp only [hasStamp, Bool.and_eq_true, decide_eq_true_eq]

theorem truncate_of_hasStamp (h : t.hasStamp = true) :
    t.truncate = t.back (t.nanos % nanosPerSecond) :=
  if_pos h

theorem truncate_of_not_hasStamp (h : ¬ t.hasStamp = true) : t.truncate = t :=
  if_neg h

@[simp] theorem truncate_seconds (t : Instant) : t.truncate.seconds = t.seconds := by
  unfold truncate
  split <;> rfl

theorem truncate_le (t : Instant) : t.truncate ≤ t := by
  by_cases h : t.hasStamp = true
  · rw [truncate_of_hasStamp h, le_def]
    exact .inr ⟨rfl, Nat.sub_le _ _⟩
  · rw [truncate_of_not_hasStamp h]
    exact le_refl t

theorem nanos_mod_of_truncate_eq (h : t.hasStamp = true) (ht : t.truncate = t) :
    t.nanos % nanosPerSecond = 0 := by
  have hn : t.nanos - t.nanos % nanosPerSecond = t.nanos := by
    rw [truncate_of_hasStamp h] at ht
    exact congrArg nanos ht
  rw [nanosPerSecond] at *
  omega

/-- Counts that are not negative are in range up to the last one that is. -/
theorem hasStamp_of_le (hk : epoch ≤ k) (hs : k.seconds = t.seconds) (hn : k.nanos ≤ t.nanos)
    (ht : t.hasStamp = true) : k.hasStamp = true := by
  rw [epoch_le_iff] at hk
  rw [hasStamp_iff, stamp, nanosPerSecond] at *
  omega

theorem eq_truncate_of_between (hk : epoch ≤ k) (hkey : k.truncate = k) (h₁ : t.truncate ≤ k)
    (h₂ : k ≤ t) : k = t.truncate := by
  by_cases h : t.hasStamp = true
  · have htrunc := truncate_of_hasStamp h
    rw [htrunc, le_def] at h₁
    rw [le_def] at h₂
    simp only [back] at h₁
    have hs : k.seconds = t.seconds := by omega
    have hn : k.nanos ≤ t.nanos := by omega
    have hmod := nanos_mod_of_truncate_eq (hasStamp_of_le hk hs hn h) hkey
    rw [htrunc, ext_iff']
    refine ⟨hs, ?_⟩
    simp only [back]
    rw [nanosPerSecond] at *
    omega
  · -- `t` is its own truncation
    rw [truncate_of_not_hasStamp h] at h₁ ⊢
    exact le_antisymm h₂ h₁

/-! ## Seconds -/

/-- The beginning of a second. -/
def IsWhole (t : Instant) : Prop :=
  t.nanos % nanosPerSecond = 0

/-- The beginning of the second that `t` lies in. -/
def secondStart (t : Instant) : Instant :=
  t.back (t.nanos % nanosPerSecond)

/-- Truncation leads to the beginning of the second. -/
def Rounds (t : Instant) : Prop :=
  t.hasStamp = true ∨ t.IsWhole

/-- Instants within one second; a leap second is one of its own. -/
def SameSecond (s t : Instant) : Prop :=
  s.seconds = t.seconds ∧ s.nanos / nanosPerSecond = t.nanos / nanosPerSecond

theorem truncate_sameSecond (t : Instant) : t.truncate.SameSecond t := by
  unfold truncate
  split
  · refine ⟨rfl, ?_⟩
    show (t.nanos - t.nanos % nanosPerSecond) / nanosPerSecond = _
    rw [nanosPerSecond]
    omega
  · exact ⟨rfl, rfl⟩

/-- What lies between two instants of one second is within that second. -/
theorem SameSecond.between {s t u : Instant} (h : s.SameSecond u) (hst : s ≤ t) (htu : t ≤ u) :
    s.SameSecond t ∧ t.SameSecond u := by
  obtain ⟨hs, hn⟩ := h
  rw [le_def] at hst htu
  have hsec : s.seconds = t.seconds := by omega
  have hle : s.nanos ≤ t.nanos := by omega
  have hle' : t.nanos ≤ u.nanos := by omega
  have h₁ := Nat.div_le_div_right (c := nanosPerSecond) hle
  have h₂ := Nat.div_le_div_right (c := nanosPerSecond) hle'
  have hst : s.SameSecond t := ⟨hsec, by omega⟩
  exact ⟨hst, hst.1 ▸ hs, by omega⟩

/-- An instant that is past in whole seconds only lies in the second of the time. -/
theorem sameSecond_of_truncate_le {t start : Instant} (h : start.truncate ≤ t) (hn : ¬ start ≤ t) :
    start.truncate.SameSecond t ∧ t.SameSecond start :=
  (truncate_sameSecond start).between h (le_of_lt (not_le.1 hn))

theorem secondStart_isWhole (t : Instant) : t.secondStart.IsWhole := by
  show (t.nanos - t.nanos % nanosPerSecond) % nanosPerSecond = 0
  rw [nanosPerSecond]
  omega

theorem secondStart_le (t : Instant) : t.secondStart ≤ t :=
  .inr ⟨rfl, Nat.sub_le _ _⟩

theorem secondStart_of_isWhole (h : t.IsWhole) : t.secondStart = t := by
  have hn : t.nanos % nanosPerSecond = 0 := h
  rw [secondStart, hn]
  rfl

theorem SameSecond.secondStart_eq (h : k.SameSecond t) : k.secondStart = t.secondStart := by
  obtain ⟨hs, hn⟩ := h
  rw [ext_iff']
  refine ⟨hs, ?_⟩
  show k.nanos - k.nanos % nanosPerSecond = t.nanos - t.nanos % nanosPerSecond
  rw [nanosPerSecond] at *
  omega

/-- An instant is within the second of a later one, or before that second. -/
theorem sameSecond_or_lt (h : k ≤ t) : k.SameSecond t ∨ k < t.secondStart := by
  rw [le_def] at h
  rw [lt_def]
  simp only [SameSecond, secondStart, back, nanosPerSecond]
  omega

theorem le_secondStart (hk : k.IsWhole) (h : k ≤ t) : k ≤ t.secondStart := by
  rcases sameSecond_or_lt h with hs | hlt
  · rw [← hs.secondStart_eq, secondStart_of_isWhole hk]
    exact le_refl k
  · exact le_of_lt hlt

/-! ## Truncation within seconds -/

theorem truncate_of_rounds (h : t.Rounds) : t.truncate = t.secondStart := by
  by_cases hs : t.hasStamp = true
  · exact truncate_of_hasStamp hs
  · rw [truncate_of_not_hasStamp hs, secondStart_of_isWhole (h.resolve_left hs)]

theorem truncate_of_not_rounds (h : ¬ t.Rounds) : t.truncate = t :=
  truncate_of_not_hasStamp fun hs => h (.inl hs)

theorem secondStart_le_truncate (t : Instant) : t.secondStart ≤ t.truncate := by
  by_cases h : t.Rounds
  · rw [truncate_of_rounds h]
    exact le_refl _
  · rw [truncate_of_not_rounds h]
    exact secondStart_le t

/-- Truncation finds the last beginning of a second exactly where it rounds. -/
theorem isGreatest_truncate_iff : IsGreatest {w | w.IsWhole ∧ w ≤ t} t.truncate ↔ t.Rounds := by
  constructor
  · rintro ⟨⟨hw, -⟩, -⟩
    by_contra h
    rw [truncate_of_not_rounds h] at hw
    exact h (.inr hw)
  · intro h
    rw [truncate_of_rounds h]
    refine ⟨⟨secondStart_isWhole t, secondStart_le t⟩, ?_⟩
    rintro w ⟨hw, hle⟩
    exact le_secondStart hw hle

/-- Two instants of one second have one truncation only if both round. -/
theorem SameSecond.truncate_eq_iff (h : k.SameSecond t) :
    k.truncate = t.truncate ↔ k = t ∨ (k.Rounds ∧ t.Rounds) := by
  have whole : ∀ {s u : Instant}, ¬ s.Rounds → u.Rounds → s.truncate ≠ u.truncate := by
    intro s u hs hu he
    rw [truncate_of_not_rounds hs, truncate_of_rounds hu] at he
    exact hs (.inr (he ▸ secondStart_isWhole u))
  by_cases hk : k.Rounds <;> by_cases ht : t.Rounds
  · simp [truncate_of_rounds hk, truncate_of_rounds ht, h.secondStart_eq, hk, ht]
  · refine iff_of_false (whole ht hk).symm ?_
    rintro (rfl | ⟨-, h⟩)
    · exact ht hk
    · exact ht h
  · refine iff_of_false (whole hk ht) ?_
    rintro (rfl | ⟨h, -⟩)
    · exact hk ht
    · exact hk h
  · simp [truncate_of_not_rounds hk, truncate_of_not_rounds ht, hk]

/-- Truncation keeps the order, but for an instant that does not round and a later one of its second
that does. -/
theorem truncate_le_truncate_iff (h : k ≤ t) :
    k.truncate ≤ t.truncate ↔ ¬ (k.SameSecond t ∧ ¬ k.Rounds ∧ t.Rounds) := by
  constructor
  · rintro hle ⟨hs, hk, ht⟩
    rw [truncate_of_not_rounds hk, truncate_of_rounds ht, ← hs.secondStart_eq] at hle
    have hwhole : k = k.secondStart := le_antisymm hle (secondStart_le k)
    exact hk (.inr (hwhole ▸ secondStart_isWhole k))
  · intro hn
    rcases sameSecond_or_lt h with hs | hlt
    · by_cases hk : k.Rounds
      · rw [truncate_of_rounds hk, hs.secondStart_eq]
        exact secondStart_le_truncate t
      · have ht : ¬ t.Rounds := fun ht => hn ⟨hs, hk, ht⟩
        rw [truncate_of_not_rounds hk, truncate_of_not_rounds ht]
        exact h
    · -- `k` is before the second of `t`
      have hlow : k.truncate ≤ t.secondStart := le_trans (truncate_le k) (le_of_lt hlt)
      exact le_trans hlow (secondStart_le_truncate t)

/-- From 1970 on, an instant rounds if a later one of its second does. -/
theorem SameSecond.rounds (h : k.SameSecond t) (hk : epoch ≤ k) (hle : k ≤ t) (ht : t.Rounds) :
    k.Rounds := by
  rw [le_def] at hle
  have hn : k.nanos ≤ t.nanos := by
    have := h.1
    omega
  rcases ht with ht | ht
  · exact .inl (hasStamp_of_le hk h.1 hn ht)
  · -- `t` begins the second, so that `k` is `t`
    refine .inr ?_
    have hw : t.nanos % nanosPerSecond = 0 := ht
    have hd := h.2
    show k.nanos % nanosPerSecond = 0
    rw [nanosPerSecond] at *
    omega

theorem truncate_le_truncate (hk : epoch ≤ k) (h : k ≤ t) : k.truncate ≤ t.truncate := by
  rw [truncate_le_truncate_iff h]
  rintro ⟨hs, hn, ht⟩
  exact hn (hs.rounds hk h ht)

end RadarFeed.Instant
