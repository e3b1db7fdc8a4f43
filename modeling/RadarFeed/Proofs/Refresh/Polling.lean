import Mathlib.Data.List.Induction
import RadarFeed.Proofs.Refresh.Timers

/-!
An enabled machine goes on asking its source.

A timer that runs or a cycle will ask again; a machine that is enabled and has neither is `Stalled`.
It gets there in one way only: a cycle breaks off because the interval to the next one cannot be
computed, no other cycle waits and no timer is armed; and it leaves only when somebody refreshes or
disables it (`Turn.stalled_iff`). So the machine polls after a run exactly when the run has not left
it `Stranded` (`polls_iff_not_stranded`).
-/

namespace RadarFeed

namespace Refresher

variable {r : Refresher}

/-- The machine asks its source again: it has a timer that runs or a cycle if it is enabled, and a
cycle if its status shows one. -/
structure Polls (r : Refresher) : Prop where
  enabled : r.enabled = true → r.running ≠ [] ∨ 0 < r.queued ∨ r.inFlight = true
  refreshing : r.status = .refreshing → 0 < r.queued ∨ r.inFlight = true

/-- The machine is enabled, but nothing will ask its source. -/
structure Stalled (r : Refresher) : Prop where
  enabled : r.enabled = true
  disarmed : r.armed = none
  queued : r.queued = 0
  inFlight : r.inFlight = false

/-- The end of a cycle leaves the machine without a timer and without another cycle: the interval
cannot be computed. -/
structure Stalls (r : Refresher) (a : CycleAnswer) : Prop where
  asked : r.inFlight = true
  found : a.isEmpty = false
  endless : a.interval? r.retry = none
  enabled : r.enabled = true
  disarmed : r.armed = none
  queued : r.queued = 0

/-- In a run from `r` the end of a cycle has stalled the machine, and nobody has refreshed or
disabled it since. -/
def Stranded (r : Refresher) (moves : List RefreshMove) : Prop :=
  ∃ before a after, moves = before ++ .cycleEnds a :: after ∧ (r.run before).Stalls a ∧
    .refresh ∉ after ∧ .disable ∉ after

theorem status_eq_scheduled_iff :
    r.status = .scheduled ↔ r.enabled = true ∧ r.refreshing = false := by
  unfold status
  cases r.enabled <;> cases r.refreshing <;> simp

theorem status_eq_refreshing_iff :
    r.status = .refreshing ↔ r.enabled = true ∧ r.refreshing = true := by
  unfold status
  cases r.enabled <;> cases r.refreshing <;> simp

theorem Sound.scheduled_running (h : Sound r) (hs : r.status = .scheduled) : r.running ≠ [] := by
  obtain ⟨he, hr⟩ := status_eq_scheduled_iff.1 hs
  rw [Ne, h.running_eq_nil_iff, h.armed_iff he, hr]
  exact Bool.false_ne_true

theorem Sound.polls_iff (h : Sound r) : r.Polls ↔ ¬ r.Stalled := by
  constructor
  · rintro ⟨hp, -⟩ ⟨he, ha, hq, hf⟩
    rcases hp he with hr | hq' | hf'
    · exact hr (h.running_of_disarmed ha)
    · exact Nat.ne_of_gt hq' hq
    · rw [hf] at hf'; cases hf'
  · intro hn
    have hc : r.enabled = true → r.armed = none → 0 < r.queued ∨ r.inFlight = true := by
      intro he ha
      rcases Nat.eq_zero_or_pos r.queued with hq | hq
      · cases hf : r.inFlight with
        | false => exact absurd ⟨he, ha, hq, hf⟩ hn
        | true => exact .inr rfl
      · exact .inl hq
    refine ⟨fun he => ?_, fun hs => ?_⟩
    · rcases Decidable.em (r.armed = none) with ha | ha
      · exact .inr (hc he ha)
      · exact .inl fun hr => ha (h.running_eq_nil_iff.1 hr)
    · obtain ⟨he, hr⟩ := status_eq_refreshing_iff.1 hs
      exact hc he ((h.armed_iff he).2 hr)

/-- A step leaves a machine stalled when it was and is neither refreshed nor disabled, or when the
end of a cycle stalls it. -/
theorem Turn.stalled_iff {move : RefreshMove} {s : Refresher} {es : List RefreshEffect}
    (t : Turn r move s es) (h : Sound r) :
    s.Stalled ↔ (r.Stalled ∧ move ≠ .refresh ∧ move ≠ .disable) ∨
      ∃ a, move = .cycleEnds a ∧ r.Stalls a := by
  constructor
  · intro hs
    cases t with
    | enabledAlready | noTurn | noTimer => exact .inl ⟨hs, nofun, nofun⟩
    | noCycle => exact .inl ⟨hs, nofun, nofun⟩
    | forgotten =>
      exact .inl ⟨⟨hs.enabled, hs.disarmed, hs.queued, hs.inFlight⟩, nofun, nofun⟩
    | brokeOff hf ha hi => exact .inr ⟨_, rfl, hf, ha, hi, hs.enabled, hs.disarmed, hs.queued⟩
    | enabled | requested | elapsed => exact absurd hs.queued (Nat.succ_ne_zero _)
    | disabled | emptied | unreachable => exact absurd hs.enabled Bool.false_ne_true
    | begun => exact absurd hs.inFlight (Bool.false_ne_true ∘ Eq.symm)
    | refused _ _ he | lapsed _ _ _ he => exact absurd (he ▸ hs.enabled) Bool.false_ne_true
    | armed => exact absurd hs.disarmed nofun
  · rintro (⟨⟨he, ha, hq, hf⟩, hr, hd⟩ | ⟨a, rfl, hs⟩)
    · cases t with
      | enabledAlready | noTurn | noTimer | noCycle | forgotten => exact ⟨he, ha, hq, hf⟩
      | requested => exact absurd rfl hr
      | disabled => exact absurd rfl hd
      | enabled he' => exact absurd (he.symm.trans he') Bool.noConfusion
      | begun h₁ | refused h₁ => exact absurd hq (Nat.ne_of_gt h₁)
      | emptied h₁ | armed h₁ | lapsed h₁ | brokeOff h₁ =>
        exact absurd (hf.symm.trans h₁) Bool.false_ne_true
      | elapsed ht | unreachable ht => exact absurd (h.armed_of_running ht) (ha ▸ nofun)
    · cases t with
      | noCycle _ hf => exact absurd (hf.symm.trans hs.asked) Bool.false_ne_true
      | emptied _ ha => exact absurd (hs.found.symm.trans ha) Bool.false_ne_true
      | armed _ _ hi | lapsed _ _ hi => exact absurd (hs.endless.symm.trans hi) nofun
      | brokeOff => exact ⟨hs.enabled, hs.disarmed, hs.queued, rfl⟩

theorem stranded_concat (r : Refresher) (moves : List RefreshMove) (move : RefreshMove) :
    r.Stranded (moves ++ [move]) ↔ (r.Stranded moves ∧ move ≠ .refresh ∧ move ≠ .disable) ∨
      ∃ a, move = .cycleEnds a ∧ (r.run moves).Stalls a := by
  unfold Stranded
  rw [exists_split_concat, or_comm]
  refine or_congr ?_ (by simp)
  simp only [List.mem_append, List.mem_singleton, not_or]
  constructor
  · rintro ⟨s, a, t, he, hs, ⟨hr, hr'⟩, hd, hd'⟩
    exact ⟨⟨s, a, t, he, hs, hr, hd⟩, Ne.symm hr', Ne.symm hd'⟩
  · rintro ⟨⟨s, a, t, he, hs, hr, hd⟩, hr', hd'⟩
    exact ⟨s, a, t, he, hs, ⟨hr, Ne.symm hr'⟩, hd, Ne.symm hd'⟩

/-- A run stalls a machine exactly when it leaves it stranded. -/
theorem stalled_run_iff (h : Sound r) (hn : ¬ r.Stalled) (moves : List RefreshMove) :
    (r.run moves).Stalled ↔ r.Stranded moves := by
  induction moves using List.reverseRecOn with
  | nil =>
    refine iff_of_false hn ?_
    rintro ⟨before, a, after, he, -⟩
    simp at he
  | append_singleton moves move ih =>
    rw [(turn_run r moves move).stalled_iff (h.run moves), ih, stranded_concat]

theorem not_stalled_new (radarId : String) (product : Option String) (retry : Duration) :
    ¬ (new radarId product retry).Stalled :=
  fun h => Bool.false_ne_true h.enabled

/-- **An enabled machine goes on asking, unless a run strands it.** Of all timers at most one is not
cancelled, and it is the one that is armed; a timer whose token is not armed any more does nothing
at its end, however late; a machine that is disabled has no timer that runs, one that shows itself
scheduled has one. A machine that is enabled has a timer or a cycle, and one that shows itself
refreshing has a cycle, exactly when the run has not stranded it. -/
theorem polls_iff_not_stranded (radarId : String) (product : Option String) (retry : Duration)
    (moves : List RefreshMove) :
    let start := new radarId product retry
    let r := start.run moves
    r.running.map RefreshTimer.token = r.armed.toList ∧
    (∀ token < r.nextToken, r.armed ≠ some token → ∀ later how,
      let s := r.run later
      (∃ timers, (s.step (.timerEnds token how)).1 = { s with timers := timers }) ∧
        s.deeds [.timerEnds token how] = []) ∧
    (r.enabled = false → r.running = []) ∧
    (r.status = .scheduled → r.running ≠ []) ∧
    (r.Polls ↔ ¬ start.Stranded moves) := by
  intro start r
  have h : Sound r := sound_run_new radarId product retry moves
  refine ⟨h.running_eq, fun token hlt ha later how => ?_, fun hd => ?_, h.scheduled_running, ?_⟩
  · dsimp only
    rw [deeds_singleton]
    exact (turn _ _).of_retired (h.run later) (retired_run hlt ha later)
  · exact h.running_of_disarmed (h.disarmed hd)
  · rw [h.polls_iff, stalled_run_iff (sound_new _ _ _) (not_stalled_new _ _ _)]

/-- A source that has an object of the future and expects the next one at the end of all spans: the
cycle breaks off, and the machine, enabled and refreshing, has neither a timer nor a cycle. -/
theorem stalls_at_the_end_of_spans :
    let outlook : Outlook := ⟨some "KLSX20240501_121000_V06", some ⟨1714565400, 0⟩,
      some ⟨1767225700, 0⟩, .ofSeconds 9223372036854775⟩
    let r := (new "KLSX" none (.ofSeconds 15)).run
      [.enable, .cycleBegins, .cycleEnds ⟨.ok ⟨1, 1⟩, outlook, ⟨1767225600, 0⟩⟩]
    r.status = .refreshing ∧ r.running = [] ∧ r.queued = 0 ∧ r.inFlight = false ∧ ¬ r.Polls := by
  intro outlook r
  have hq : r.queued = 0 ∧ r.inFlight = false := by decide
  refine ⟨by decide, by decide, hq.1, hq.2, fun h => ?_⟩
  rcases h.refreshing (by decide) with h | h
  · exact Nat.ne_of_gt h hq.1
  · exact Bool.false_ne_true (hq.2.symm.trans h)

end Refresher

end RadarFeed
