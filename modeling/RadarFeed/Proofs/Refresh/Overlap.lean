import RadarFeed.Proofs.Refresh.Polling

/-!
What the status of a machine says while a cycle asks the source.

A machine takes its timer off when a cycle is wanted, not when the cycle gets its turn. A cycle
that ends in between arms a new timer, beside which the next cycle then runs, and the machine shows
itself scheduled. `Overtaken` describes the runs in which that has happened; `status_of_cycle_iff`
says that in all others a cycle in flight is shown, and no timer runs beside it.
-/

namespace RadarFeed

namespace Refresher

variable {r : Refresher}

/-- The end of a cycle arms a timer while another cycle waits for its turn. -/
structure Overtakes (r : Refresher) (a : CycleAnswer) : Prop where
  asked : r.inFlight = true
  found : a.isEmpty = false
  timed : a.interval? r.retry ≠ none
  enabled : r.enabled = true
  waiting : 0 < r.queued

/-- In a run from `r` a cycle has ended and armed a timer while another one waited, and no cycle has
been queued since. -/
def Overtaken (r : Refresher) (moves : List RefreshMove) : Prop :=
  ∃ before a after, moves = before ++ .cycleEnds a :: after ∧ (r.run before).Overtakes a ∧
    .cycle ∉ (r.run (before ++ [.cycleEnds a])).deeds after

/-- The machine is enabled and has a cycle, but wants none. -/
structure Lags (r : Refresher) : Prop where
  enabled : r.enabled = true
  refreshing : r.refreshing = false
  cycle : 0 < r.queued ∨ r.inFlight = true

/-- Only the end of another cycle lets a machine lag. -/
theorem Turn.lags {move : RefreshMove} {s : Refresher} {es : List RefreshEffect}
    (t : Turn r move s es) (hs : s.Lags) :
    (r.Lags ∧ .cycle ∉ es) ∨ ∃ a, move = .cycleEnds a ∧ r.Overtakes a := by
  obtain ⟨he, hr, hc⟩ := hs
  cases t with
  | enabledAlready | noTurn | noCycle | noTimer | forgotten => exact .inl ⟨⟨he, hr, hc⟩, nofun⟩
  | begun hq => exact .inl ⟨⟨he, hr, .inl hq⟩, nofun⟩
  | brokeOff => exact .inl ⟨⟨he, hr, hc.imp_right nofun⟩, nofun⟩
  | armed hf ha hi => exact .inr ⟨_, rfl, hf, ha, by simp [hi], he, hc.resolve_right nofun⟩
  | enabled | requested | elapsed => exact absurd hr nofun
  | disabled | emptied | unreachable => exact absurd he nofun
  | refused _ _ hd | lapsed _ _ _ hd => exact absurd (he.symm.trans hd) nofun

theorem Turn.calm {move : RefreshMove} {s : Refresher} {es : List RefreshEffect}
    (t : Turn r move s es) (hc : .cycle ∉ es) (h : r.enabled = true → r.refreshing = false) :
    s.enabled = true → s.refreshing = false := by
  cases t with
  | enabled | requested | elapsed => exact absurd (List.mem_singleton_self _) hc
  | disabled | unreachable => exact nofun
  | refused | emptied | armed | lapsed => exact fun _ => rfl
  | enabledAlready | noTurn | begun | noCycle | brokeOff | noTimer | forgotten => exact h

theorem calm_run (moves : List RefreshMove) (hc : .cycle ∉ r.deeds moves)
    (h : r.enabled = true → r.refreshing = false) :
    (r.run moves).enabled = true → (r.run moves).refreshing = false := by
  induction moves generalizing r with
  | nil => exact h
  | cons move moves ih =>
    simp only [deeds, List.mem_append, not_or] at hc
    exact ih hc.2 ((turn r move).calm hc.1 h)

theorem Turn.calm_of_overtakes {a : CycleAnswer} {s : Refresher} {es : List RefreshEffect}
    (t : Turn r (.cycleEnds a) s es) (ho : r.Overtakes a) : s.refreshing = false := by
  cases t with
  | noCycle _ hf => exact absurd (ho.asked.symm.trans hf) nofun
  | brokeOff _ _ hi => exact absurd hi ho.timed
  | emptied | armed | lapsed => rfl

theorem overtaken_concat (r : Refresher) (moves : List RefreshMove) (move : RefreshMove) :
    r.Overtaken (moves ++ [move]) ↔
      (∃ a, move = .cycleEnds a ∧ (r.run moves).Overtakes a) ∨
        (r.Overtaken moves ∧ .cycle ∉ (r.run moves).deeds [move]) := by
  unfold Overtaken
  rw [exists_split_concat]
  refine or_congr (by simp [deeds]) ?_
  simp only [deeds_append, List.mem_append, not_or]
  constructor
  · rintro ⟨s, a, t, rfl, ho, h₁, h₂⟩
    refine ⟨⟨s, a, t, rfl, ho, h₁⟩, ?_⟩
    rwa [← run_append, List.append_assoc, List.singleton_append] at h₂
  · rintro ⟨⟨s, a, t, rfl, ho, h₁⟩, h₂⟩
    refine ⟨s, a, t, rfl, ho, h₁, ?_⟩
    rwa [← run_append, List.append_assoc, List.singleton_append]

theorem overtaken_of_lags (hn : ¬ r.Lags) (moves : List RefreshMove) (h : (r.run moves).Lags) :
    r.Overtaken moves := by
  induction moves using List.reverseRecOn with
  | nil => exact absurd h hn
  | append_singleton moves move ih =>
    rw [overtaken_concat]
    exact ((turn_run r moves move).lags h).symm.imp_right fun ⟨hl, hc⟩ => ⟨ih hl, hc⟩

theorem calm_of_overtaken (moves : List RefreshMove) (h : r.Overtaken moves) :
    (r.run moves).enabled = true → (r.run moves).refreshing = false := by
  obtain ⟨before, a, after, rfl, ho, hc⟩ := h
  rw [List.append_cons, run_append]
  refine calm_run after hc fun _ => ?_
  exact (turn_run r before _).calm_of_overtakes ho

/-- **The status while a cycle asks the source.** The machine shows the cycle, and no timer runs
beside it, exactly when the run has not overtaken it; and if it has, the machine shows itself
scheduled, and a timer runs. -/
theorem status_of_cycle_iff (radarId : String) (product : Option String) (retry : Duration)
    (moves : List RefreshMove)
    (he : ((new radarId product retry).run moves).enabled = true)
    (hf : ((new radarId product retry).run moves).inFlight = true) :
    let start := new radarId product retry
    let r := start.run moves
    (r.status = .refreshing ∧ r.running = [] ↔ ¬ start.Overtaken moves) ∧
      (r.status = .scheduled ∧ r.running ≠ [] ↔ start.Overtaken moves) := by
  intro start r
  have h : Sound r := sound_run_new radarId product retry moves
  have he : r.enabled = true := he
  have hr : r.refreshing = false ↔ start.Overtaken moves := by
    constructor
    · intro hr
      exact overtaken_of_lags (fun hl => Bool.false_ne_true hl.enabled) moves ⟨he, hr, .inr hf⟩
    · intro ho
      exact calm_of_overtaken moves ho he
  rw [status_eq_refreshing_iff, status_eq_scheduled_iff, Ne, h.running_eq_nil_iff, h.armed_iff he,
    ← hr]
  simp [he]

/-- A source that is asked for the first time: the status shows the cycle. -/
theorem status_of_first_cycle :
    let start := new "KLSX" none (.ofSeconds 15)
    let r := start.run [.enable, .cycleBegins]
    r.enabled = true ∧ r.inFlight = true ∧
      (r.status = .refreshing ∧ r.running = [] ↔ ¬ start.Overtaken [.enable, .cycleBegins]) ∧
      (r.status = .scheduled ∧ r.running ≠ [] ↔ start.Overtaken [.enable, .cycleBegins]) :=
  ⟨by decide, by decide, status_of_cycle_iff "KLSX" none (.ofSeconds 15) [.enable, .cycleBegins]
    (by decide) (by decide)⟩

/-- A machine that is disabled and enabled again while a cycle asks the source: once that cycle has
ended, the next one asks beside a timer, and the status shows the timer. -/
theorem scheduled_while_asking :
    let a : CycleAnswer := ⟨.ok ⟨0, 1⟩, ⟨none, none, none, defaultUpdatePeriod⟩, ⟨1767225600, 0⟩⟩
    let r := (new "KLSX" none (.ofSeconds 15)).run
      [.enable, .cycleBegins, .disable, .enable, .cycleEnds a, .cycleBegins]
    r.enabled = true ∧ r.inFlight = true ∧ r.status = .scheduled ∧ r.running ≠ [] := by
  decide

end Refresher

end RadarFeed
