import RadarFeed.Proofs.Refresh.Interval
import RadarFeed.Proofs.Refresh.Polling
import RadarFeed.Proofs.Refresh.Silence

/-!
How a cycle ends.

A cycle that has turned to the source keeps its turn until it gets its answer, whatever is done to
the machine meanwhile (`inFlight_run`). The answer then decides what is published and which timer is
armed (`Turn.of_isStale`, `Turn.of_news`, `Turn.of_empty`), and the switch by then whether one is
armed at all. No timer has an interval below the retry interval (`patient_run`).
-/

namespace RadarFeed

namespace CycleAnswer

variable {a : CycleAnswer} {retry interval : Duration}

theorem retry_le_of_interval? (h : a.interval? retry = some interval) :
    retry.nanos ≤ interval.nanos := by
  unfold interval? at h
  split at h
  · exact retry_le_of_nextInterval h
  · obtain rfl := Option.some.inj h
    exact Nat.le_refl _

/-- The source has failed, or has objects but no new one. -/
inductive IsStale (a : CycleAnswer) : Prop where
  | failed {e : SourceError} : a.news = .error e → IsStale a
  | noNews {n : Nat} : a.news = .ok ⟨0, n + 1⟩ → IsStale a

theorem IsStale.isEmpty (h : a.IsStale) : a.isEmpty = false := by
  cases h with
  | failed h => simp [CycleAnswer.isEmpty, h]
  | noNews h => simp [CycleAnswer.isEmpty, h]

theorem IsStale.interval? (h : a.IsStale) : a.interval? retry = some retry := by
  cases h with
  | failed h => simp [CycleAnswer.interval?, h]
  | noNews h => simp [CycleAnswer.interval?, h]

theorem IsStale.newest? (h : a.IsStale) : a.newest? = none := by
  cases h with
  | failed h => simp [CycleAnswer.newest?, h]
  | noNews h => simp [CycleAnswer.newest?, h]

section
variable {k n : Nat} (h : a.news = .ok ⟨k + 1, n⟩)
include h

theorem isEmpty_of_news : a.isEmpty = false := by
  simp [isEmpty, h]

theorem interval?_of_news : a.interval? retry = nextInterval retry a.outlook a.now := by
  simp [interval?, h]

theorem newest?_of_news : a.newest? = a.outlook.latestKey.bind fun _ => a.outlook.latestTime := by
  simp [newest?, h]

end

end CycleAnswer

namespace Refresher

variable {r s : Refresher} {move : RefreshMove} {es : List RefreshEffect} {a : CycleAnswer}
  {interval : Duration}

/-! ## Intervals of timers -/

/-- No timer has an interval below the retry interval. -/
def Patient (r : Refresher) : Prop :=
  ∀ t ∈ r.timers, r.retry.nanos ≤ t.interval.nanos

theorem Patient.cancel (h : r.Patient) : r.cancel.Patient := by
  intro t ht
  obtain ⟨u, hu, rfl⟩ := List.mem_map.1 ht
  have hle := h u hu
  split
  · exact hle
  · exact hle

theorem Patient.forget (h : r.Patient) (token : Nat) : (r.forget token).Patient := by
  intro t ht
  exact h t (List.mem_filter.1 ht).1

theorem Patient.arm (h : r.Patient) (hle : r.retry.nanos ≤ interval.nanos) :
    (r.arm interval).Patient := by
  intro t ht
  rcases List.mem_append.1 ht with ht | ht
  · exact h.cancel t ht
  · rw [List.mem_singleton.1 ht]
    exact hle

theorem Turn.retry_eq (t : Turn r move s es) : s.retry = r.retry := by
  cases t <;> rfl

theorem Turn.patient (t : Turn r move s es) (h : r.Patient) : s.Patient := by
  cases t with
  | enabledAlready | noTurn | begun | refused | noCycle | lapsed | brokeOff | noTimer => exact h
  | enabled | disabled | requested | emptied => exact h.cancel
  | armed _ _ hi => exact Patient.arm (r := r.endTurn) h (CycleAnswer.retry_le_of_interval? hi)
  | forgotten => exact h.forget _
  | elapsed | unreachable => exact (h.forget _).cancel

theorem retry_run (r : Refresher) (moves : List RefreshMove) : (r.run moves).retry = r.retry := by
  induction moves generalizing r with
  | nil => rfl
  | cons move moves ih => exact (ih _).trans (turn r move).retry_eq

theorem patient_run (h : r.Patient) (moves : List RefreshMove) : (r.run moves).Patient := by
  induction moves generalizing r with
  | nil => exact h
  | cons move moves ih => exact ih ((turn r move).patient h)

theorem patient_new (radarId : String) (product : Option String) (retry : Duration) :
    (new radarId product retry).Patient := by
  simp [Patient, new]

/-! ## Turns of cycles -/

/-- A cycle keeps its turn until it ends. -/
theorem Turn.inFlight (t : Turn r move s es) (hm : ∀ a, move ≠ .cycleEnds a)
    (hf : r.inFlight = true) : s.inFlight = true := by
  cases t with
  | begun => rfl
  | noCycle | emptied | armed | lapsed | brokeOff => exact absurd rfl (hm _)
  | enabledAlready | enabled | disabled | requested | noTurn | refused | noTimer | forgotten
  | elapsed | unreachable => exact hf

theorem inFlight_run {moves : List RefreshMove} (hm : ∀ a, .cycleEnds a ∉ moves)
    (hf : r.inFlight = true) : (r.run moves).inFlight = true := by
  induction moves generalizing r with
  | nil => exact hf
  | cons move moves ih =>
    refine ih (fun a ha => hm a (List.mem_cons_of_mem _ ha)) ?_
    refine (turn r move).inFlight ?_ hf
    rintro a rfl
    exact hm a List.mem_cons_self

/-- A cycle of an enabled machine gets its turn unless another one has it. -/
theorem Turn.begins (t : Turn r .cycleBegins s es) (he : r.enabled = true) (hq : 0 < r.queued)
    (hf : r.inFlight = false) : s.inFlight = true := by
  cases t with
  | noTurn h =>
    rcases h with h | h
    · exact absurd h (Nat.ne_of_gt hq)
    · exact absurd (hf.symm.trans h) Bool.false_ne_true
  | begun => rfl
  | refused _ _ hd => exact absurd (hd.symm.trans he) Bool.false_ne_true

theorem inFlight_run_begun {before during : List RefreshMove}
    (he : (r.run before).enabled = true) (hq : 0 < (r.run before).queued)
    (hf : (r.run before).inFlight = false) (hd : ∀ a, .cycleEnds a ∉ during) :
    (r.run (before ++ .cycleBegins :: during)).inFlight = true := by
  rw [List.append_cons, run_append]
  exact inFlight_run hd ((turn_run r before .cycleBegins).begins he hq hf)

theorem group_run (r : Refresher) (moves : List RefreshMove) : (r.run moves).group = r.group := by
  rw [group, group, product_run]

/-! ## Ends of cycles -/

/-- The machine shows itself scheduled, and a timer of the interval, armed by the effects, is the
only one that runs. -/
structure Schedules (s : Refresher) (es : List RefreshEffect) (interval : Duration) : Prop where
  status : s.status = .scheduled
  latest : s.interval = some interval
  timer : ∃ token, s.armed = some token ∧ s.running = [⟨token, interval, false⟩] ∧
    .timer token ∈ es

/-- The machine is disabled, and no timer is armed. -/
structure Rests (s : Refresher) (es : List RefreshEffect) : Prop where
  status : s.status = .disabled
  running : s.running = []
  timer : ∀ token, .timer token ∉ es

/-- A timer of the interval is armed if the machine was still enabled. -/
structure Waits (r s : Refresher) (es : List RefreshEffect) (interval : Duration) : Prop where
  enabled : r.enabled = true → s.Schedules es interval
  disabled : r.enabled = false → s.Rests es

theorem schedules_arm (h : Sound r) (he : r.enabled = true) (hmem : .timer r.nextToken ∈ es) :
    (r.arm interval).Schedules es interval where
  status := status_eq_scheduled_iff.2 ⟨he, rfl⟩
  latest := rfl
  timer := by
    have hcancel : r.cancel.running = [] := running_cancel fun t ht => h.armed_of_running ht
    have hrunning : (r.arm interval).running =
        r.cancel.running ++ [⟨r.nextToken, interval, false⟩] := List.filter_append ..
    rw [hcancel] at hrunning
    exact ⟨r.nextToken, rfl, hrunning, hmem⟩

/-- A machine that is disabled after a cycle has ended has no timer. -/
theorem Turn.rests (t : Turn r (.cycleEnds a) s es) (h : Sound r) (hd : s.enabled = false) :
    s.Rests es where
  status := status_eq_disabled_iff.2 hd
  running := (t.sound h).running_of_disarmed ((t.sound h).disarmed hd)
  timer := by
    intro token
    cases t with
    | armed _ _ _ he => exact absurd (hd.symm.trans he) Bool.false_ne_true
    | lapsed => exact timer_notMem_published r a token
    | noCycle | emptied | brokeOff => exact List.not_mem_nil

/-- The end of a cycle whose source has objects. -/
theorem Turn.ending (t : Turn r (.cycleEnds a) s es) (h : Sound r) (hf : r.inFlight = true)
    (ha : a.isEmpty = false) (hi : a.interval? r.retry = some interval) :
    es.filterMap RefreshEffect.event? =
        (a.newest?.map fun t => .newData r.group r.product t).toList ∧
      r.Waits s es interval := by
  cases t with
  | noCycle _ hf' => exact absurd (hf'.symm.trans hf) Bool.false_ne_true
  | emptied _ ha' => exact absurd (ha.symm.trans ha') Bool.false_ne_true
  | brokeOff _ _ hi' =>
    rw [hi] at hi'
    cases hi'
  | armed _ _ hi' he =>
    obtain rfl := Option.some.inj (hi.symm.trans hi')
    have hsound : Sound r.endTurn := h.cycles (fun _ => rfl) r.queued false
    have hmem : .timer r.nextToken ∈ r.published a ++ [.timer r.nextToken] := by simp
    constructor
    · rw [List.filterMap_append, events_published]
      exact List.append_nil _
    · refine ⟨fun _ => schedules_arm (r := r.endTurn) hsound he hmem, ?_⟩
      intro hd
      exact absurd (hd.symm.trans he) Bool.false_ne_true
  | lapsed _ _ _ hd =>
    refine ⟨events_published r a, fun he => absurd (hd.symm.trans he) Bool.false_ne_true, ?_⟩
    intro _
    exact (Turn.lapsed hf ha hi hd).rests h hd

/-- The end of a cycle whose source has failed or has no news. -/
theorem Turn.of_isStale (t : Turn r (.cycleEnds a) s es) (h : Sound r) (hf : r.inFlight = true)
    (ha : a.IsStale) : es.filterMap RefreshEffect.event? = [] ∧ r.Waits s es r.retry := by
  have hending := t.ending h hf ha.isEmpty ha.interval?
  rwa [ha.newest?] at hending

/-- The end of a cycle whose source has news. -/
theorem Turn.of_news (t : Turn r (.cycleEnds a) s es) (h : Sound r) (hf : r.inFlight = true)
    {k n : Nat} (ha : a.news = .ok ⟨k + 1, n⟩)
    (hi : nextInterval r.retry a.outlook a.now = some interval) :
    (∀ key t, a.outlook.latestKey = some key → a.outlook.latestTime = some t →
      es.filterMap RefreshEffect.event? = [.newData r.group r.product t]) ∧
    (a.outlook.latestKey = none ∨ a.outlook.latestTime = none →
      es.filterMap RefreshEffect.event? = []) ∧
    r.Waits s es interval := by
  rw [← CycleAnswer.interval?_of_news ha] at hi
  obtain ⟨htold, hwaits⟩ := t.ending h hf (CycleAnswer.isEmpty_of_news ha) hi
  rw [CycleAnswer.newest?_of_news ha] at htold
  refine ⟨?_, ?_, hwaits⟩
  · intro key t hkey ht
    rw [htold, hkey, ht]
    rfl
  · rintro (hkey | ht)
    · rw [htold, hkey]
      rfl
    · rw [htold, ht, Option.bind_fun_none]
      rfl

/-- The end of a cycle whose source has no objects. -/
theorem Turn.of_empty (t : Turn r (.cycleEnds a) s es) (h : Sound r) (hf : r.inFlight = true)
    (ha : a.isEmpty = true) : es = [] ∧ s.Rests es := by
  cases t with
  | noCycle _ hf' => exact absurd (hf'.symm.trans hf) Bool.false_ne_true
  | emptied => exact ⟨rfl, (Turn.emptied hf ha).rests h rfl⟩
  | armed _ ha' | lapsed _ ha' | brokeOff _ ha' =>
    exact absurd (ha'.symm.trans ha) Bool.false_ne_true

/-- The end of a cycle for which the next interval cannot be computed. -/
theorem Turn.of_brokeOff (t : Turn r (.cycleEnds a) s es) (hi : a.interval? r.retry = none)
    (ha : a.isEmpty = false) : es = [] := by
  cases t with
  | emptied _ ha' => exact absurd (ha.symm.trans ha') Bool.false_ne_true
  | armed _ _ hi' | lapsed _ _ hi' =>
    rw [hi] at hi'
    cases hi'
  | noCycle | brokeOff => rfl

/-- **The outcome of a cycle.** A cycle of a machine that is enabled when it gets its turn keeps it
while the source is asked, whatever is done to the machine meanwhile. Then
* on an error, and without news, no event is published and the retry interval is waited for;
* on news the newest object is published if it has a key and a time, and the next interval is waited
  for; where that cannot be computed nothing is published and no timer is armed;
* without objects nothing is published, and the machine is disabled.
To wait is to arm a timer if the machine is still enabled. If it is disabled when the cycle ends no
timer is armed, and none is ever armed with an interval below the retry interval. -/
theorem cycle_outcome (radarId : String) (product : Option String) (retry : Duration)
    (before during : List RefreshMove) (a : CycleAnswer)
    (he : ((new radarId product retry).run before).enabled = true)
    (hq : 0 < ((new radarId product retry).run before).queued)
    (hf : ((new radarId product retry).run before).inFlight = false)
    (hd : ∀ a, .cycleEnds a ∉ during) :
    let start := new radarId product retry
    let r := start.run (before ++ .cycleBegins :: during)
    let s := (r.step (.cycleEnds a)).1
    let es := r.deeds [.cycleEnds a]
    let told := r.events [.cycleEnds a]
    r.inFlight = true ∧
    (∀ e, a.news = .error e → told = [] ∧ r.Waits s es retry) ∧
    (∀ n, a.news = .ok ⟨0, n + 1⟩ → told = [] ∧ r.Waits s es retry) ∧
    (∀ k n, a.news = .ok ⟨k + 1, n⟩ → ∀ interval,
      nextInterval retry a.outlook a.now = some interval →
        (∀ key t, a.outlook.latestKey = some key → a.outlook.latestTime = some t →
          told = [.newData start.group product t]) ∧
        (a.outlook.latestKey = none ∨ a.outlook.latestTime = none → told = []) ∧
        r.Waits s es interval) ∧
    (∀ k n, a.news = .ok ⟨k + 1, n⟩ → nextInterval retry a.outlook a.now = none → es = []) ∧
    (a.news = .ok ⟨0, 0⟩ → told = [] ∧ s.Rests es) ∧
    (s.enabled = false → s.Rests es) ∧
    ∀ moves, ∀ t ∈ (start.run moves).timers, retry.nanos ≤ t.interval.nanos := by
  intro start r s es told
  have hsound : Sound r := sound_run_new radarId product retry _
  have hretry : r.retry = retry := retry_run start _
  have hproduct : r.product = product := product_run start _
  have hgroup : r.group = start.group := group_run start _
  have hasked : r.inFlight = true := inFlight_run_begun he hq hf hd
  have t : Turn r (.cycleEnds a) s es := by
    rw [show es = _ from deeds_singleton r _]
    exact turn r _
  have hstale : a.IsStale → told = [] ∧ r.Waits s es retry := by
    intro ha
    rw [← hretry]
    exact t.of_isStale hsound hasked ha
  refine ⟨hasked, fun _ ha => hstale (.failed ha), fun _ ha => hstale (.noNews ha), ?_, ?_, ?_,
    t.rests hsound, ?_⟩
  · intro k n ha interval hi
    rw [← hretry] at hi
    rw [← hgroup, ← hproduct]
    exact t.of_news hsound hasked ha hi
  · intro k n ha hi
    rw [← hretry, ← CycleAnswer.interval?_of_news ha] at hi
    exact t.of_brokeOff hi (CycleAnswer.isEmpty_of_news ha)
  · intro ha
    obtain ⟨hes, hrests⟩ := t.of_empty hsound hasked (by simp [CycleAnswer.isEmpty, ha])
    refine ⟨?_, hrests⟩
    show es.filterMap RefreshEffect.event? = []
    rw [hes]
    rfl
  · intro moves t ht
    have hle := patient_run (patient_new radarId product retry) moves t ht
    rwa [retry_run] at hle

/-- A source with a new object, 100 seconds old, of every 300 seconds. While it was asked, the
machine was disabled and enabled again. -/
theorem outcome_of_news :
    let a : CycleAnswer := ⟨.ok ⟨1, 7⟩, ⟨some "LSX_N0B_2024_05_01_12_10_03", some ⟨1714565403, 0⟩,
      some ⟨1714565403, 0⟩, .ofSeconds 300⟩, ⟨1714565503, 0⟩⟩
    let r := (new "KLSX" (some "N0B") (.ofSeconds 15)).run
      [.enable, .cycleBegins, .disable, .enable]
    r.inFlight = true ∧
      r.events [.cycleEnds a] = [.newData .level3 (some "N0B") ⟨1714565403, 0⟩] ∧
      (r.step (.cycleEnds a)).1.Schedules (r.deeds [.cycleEnds a]) (.ofSeconds 200) := by
  intro a r
  obtain ⟨hasked, -, -, hnews, -⟩ := cycle_outcome "KLSX" (some "N0B") (.ofSeconds 15) [.enable]
    [.disable, .enable] a (by decide) (by decide) (by decide) (by simp)
  obtain ⟨hevent, -, hwaits⟩ := hnews 0 7 rfl (.ofSeconds 200) (by decide)
  exact ⟨hasked, hevent _ _ rfl rfl, hwaits.enabled (by decide)⟩

end Refresher

end RadarFeed
