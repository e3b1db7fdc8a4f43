import RadarFeed.Proofs.Refresh.Timers

/-!
A machine that is disabled does nothing until it is enabled again.

`Disables` lists the steps that disable a machine. Whatever follows, and however many cycles and
timers there were, as long as nobody enables the machine the run is `Silent`
(`silent_of_disabled`): each cycle and each timer looks at the machine before it acts. Only the
cycle that has its turn by then may still publish what it found.
-/

namespace RadarFeed

/-- What the subscribers are told. -/
def RefreshEffect.event? : RefreshEffect → Option ProductEvent
  | .event e => some e
  | _ => none

namespace Refresher

variable {r : Refresher}

/-- What the subscribers are told in a run. -/
def events (r : Refresher) (moves : List RefreshMove) : List ProductEvent :=
  (r.deeds moves).filterMap RefreshEffect.event?

theorem events_append (r : Refresher) (s t : List RefreshMove) :
    r.events (s ++ t) = r.events s ++ (r.run s).events t := by
  simp only [events, deeds_append, List.filterMap_append]

theorem events_singleton (r : Refresher) (move : RefreshMove) :
    r.events [move] = (r.step move).2.filterMap RefreshEffect.event? := by
  rw [events, deeds_singleton, List.filterMap_filter]
  refine List.filterMap_congr fun e _ => ?_
  cases e <;> rfl

/-- How often cycles turn to the source in a run. -/
def asks (r : Refresher) : List RefreshMove → Nat
  | [] => 0
  | move :: moves =>
    (!r.inFlight && (r.step move).1.inFlight).toNat + (r.step move).1.asks moves

/-- A run of a machine that stays disabled: no cycle turns to the source, no timer is armed, and at
most the cycle that has its turn at the beginning publishes an event. -/
structure Silent (r : Refresher) (moves : List RefreshMove) : Prop where
  disabled : (r.run moves).status = .disabled
  running : (r.run moves).running = []
  asks : r.asks moves = 0
  armed : ∀ token, .timer token ∉ r.deeds moves
  events : (r.events moves).length + (r.run moves).inFlight.toNat ≤ r.inFlight.toNat

/-- The steps that disable a machine: somebody does so, a source has no objects, or the timer that
is armed cannot be waited for. -/
inductive Disables (r : Refresher) : RefreshMove → Prop where
  | called : Disables r .disable
  | emptied {a : CycleAnswer} : r.inFlight = true → a.isEmpty = true → Disables r (.cycleEnds a)
  | unreachable {token : Nat} : r.armed = some token →
      Disables r (.timerEnds token .unreachable)

theorem status_eq_disabled_iff : r.status = .disabled ↔ r.enabled = false := by
  unfold status
  cases r.enabled <;> cases r.refreshing <;> simp

theorem Sound.running_of_armed (h : Sound r) {token : Nat} (ha : r.armed = some token) :
    ∃ t ∈ r.running, t.token = token := by
  have : token ∈ r.running.map RefreshTimer.token := by rw [h.running_eq, ha]; simp
  exact List.mem_map.1 this

/-- Nothing else disables a machine. -/
theorem Turn.disables_iff {move : RefreshMove} {s : Refresher} {es : List RefreshEffect}
    (t : Turn r move s es) (h : Sound r) (he : r.enabled = true) :
    s.enabled = false ↔ Disables r move := by
  have hne : ¬ r.enabled = false := by rw [he]; exact Bool.noConfusion
  constructor
  · intro hd
    cases t with
    | disabled => exact .called
    | emptied hf ha => exact .emptied hf ha
    | unreachable ht => exact .unreachable (h.armed_of_running ht)
    | enabledAlready | requested | noTurn | begun | refused | noCycle | armed | lapsed | brokeOff
    | noTimer | forgotten | elapsed => exact absurd hd hne
    | enabled he' => exact absurd he' hne
  · rintro (_ | ⟨hf, ha⟩ | ⟨ha⟩)
    · cases t; rfl
    · cases t with
      | noCycle _ hf' => rw [hf] at hf'; cases hf'
      | emptied => rfl
      | armed _ ha' | lapsed _ ha' | brokeOff _ ha' => rw [ha] at ha'; cases ha'
    · obtain ⟨u, hu, hut⟩ := h.running_of_armed ha
      cases t with
      | noTimer _ hn => exact absurd hut (hn u (mem_running.1 hu).1)
      | forgotten _ ht hc =>
        have := List.inj_on_of_nodup_map h.unique (mem_running.1 hu).1 ht hut
        rw [← this, (mem_running.1 hu).2] at hc; cases hc
      | unreachable => rfl

theorem events_published (r : Refresher) (a : CycleAnswer) :
    (r.published a).filterMap RefreshEffect.event? =
      (a.newest?.map fun t => .newData r.group r.product t).toList := by
  unfold published
  cases a.newest? <;> rfl

theorem length_events_published (r : Refresher) (a : CycleAnswer) :
    ((r.published a).filterMap RefreshEffect.event?).length ≤ 1 := by
  rw [events_published]
  cases a.newest? <;> simp

theorem timer_notMem_published (r : Refresher) (a : CycleAnswer) (token : Nat) :
    .timer token ∉ r.published a := by
  simp [published]

/-- A step of a machine that is disabled and that nobody enables. A cycle that had its turn may
publish one event, and has none any more. -/
theorem Turn.of_disabled {move : RefreshMove} {s : Refresher} {es : List RefreshEffect}
    (t : Turn r move s es) (hd : r.enabled = false) (hm : move ≠ .enable) :
    s.enabled = false ∧ (∀ token, .timer token ∉ es) ∧
      (es.filterMap RefreshEffect.event?).length + s.inFlight.toNat ≤ r.inFlight.toNat := by
  have hno : ∀ {p : Prop}, r.enabled = true → p := by
    intro p he; rw [hd] at he; cases he
  cases t with
  | enabledAlready | enabled => exact absurd rfl hm
  | begun _ _ he | armed _ _ _ he => exact hno he
  | disabled | noTurn | refused | noCycle | noTimer | forgotten | unreachable =>
    refine ⟨by first | exact hd | rfl, by simp, ?_⟩
    exact Nat.le_of_eq (Nat.zero_add _)
  | requested | elapsed =>
    refine ⟨hd, by simp, ?_⟩
    exact Nat.le_of_eq (Nat.zero_add _)
  | emptied | brokeOff =>
    refine ⟨by first | exact hd | rfl, by simp, ?_⟩
    exact Nat.zero_le _
  | lapsed hf =>
    refine ⟨hd, timer_notMem_published r _, ?_⟩
    rw [hf]
    exact length_events_published r _

theorem silent_nil (h : Sound r) (hd : r.enabled = false) : r.Silent [] where
  disabled := status_eq_disabled_iff.2 hd
  running := h.running_of_disarmed (h.disarmed hd)
  asks := rfl
  armed := by simp [deeds]
  events := by simp [events, deeds, run]

theorem silent_cons {move : RefreshMove} {moves : List RefreshMove} (hd : r.enabled = false)
    (hm : move ≠ .enable) (h : (r.step move).1.Silent moves) : r.Silent (move :: moves) := by
  obtain ⟨-, ht, he⟩ := (turn r move).of_disabled hd hm
  refine ⟨h.disabled, h.running, ?_, fun token => ?_, ?_⟩
  · have : (!r.inFlight && (r.step move).1.inFlight).toNat = 0 := by
      cases hf : r.inFlight with
      | true => rfl
      | false =>
        rw [hf, Bool.toNat_false] at he
        have : (r.step move).1.inFlight.toNat = 0 := by omega
        simpa using this
    rw [asks, this, h.asks]
  · rw [deeds, List.mem_append, not_or]
    exact ⟨ht token, h.armed token⟩
  · have := h.events
    simp only [events, deeds, List.filterMap_append, List.length_append, run] at this ⊢
    omega

/-- **A machine that is disabled is silent until it is enabled.** -/
theorem silent_of_disabled (h : Sound r) (hd : r.enabled = false) {moves : List RefreshMove}
    (hm : .enable ∉ moves) : r.Silent moves := by
  induction moves generalizing r with
  | nil => exact silent_nil h hd
  | cons move moves ih =>
    obtain ⟨hne, hm⟩ := not_or.1 (mt List.mem_cons.2 hm)
    have hd' := ((turn r move).of_disabled hd (Ne.symm hne)).1
    exact silent_cons hd (Ne.symm hne) (ih (h.step move) hd' hm)

/-- A machine that a step disables is silent from then on until it is enabled. -/
theorem silent_of_disables (h : Sound r) {move : RefreshMove} (hm : Disables r move)
    {moves : List RefreshMove} (hn : .enable ∉ moves) : (r.step move).1.Silent moves := by
  refine silent_of_disabled (h.step move) ?_ hn
  have t := turn r move
  by_cases he : r.enabled = true
  · exact (t.disables_iff h he).2 hm
  · have hd : r.enabled = false := by simpa using he
    refine (t.of_disabled hd ?_).1
    rintro rfl
    cases hm

end Refresher

end RadarFeed
