import Mathlib.Data.List.Nodup
import RadarFeed.Proofs.Refresh.Turn

/-!
The timers of a machine, and what its switches say about them.

`Sound` is what holds of a machine after any steps from the beginning (`sound_run_new`): each timer
has a token of its own, the only one that is not cancelled is the one that is armed, a machine that
is disabled has none armed, and one that is enabled has none exactly while a cycle is wanted. A
token that is not armed never will be again, and its timer ends without effect
(`retired_run`, `Turn.of_retired`).
-/

namespace RadarFeed

namespace Refresher

variable {r : Refresher}

/-- What holds of the timers and switches of every machine. -/
structure Sound (r : Refresher) : Prop where
  fresh : ∀ t ∈ r.timers, t.token < r.nextToken
  unique : (r.timers.map RefreshTimer.token).Nodup
  running_eq : r.running.map RefreshTimer.token = r.armed.toList
  disarmed : r.enabled = false → r.armed = none
  armed_iff : r.enabled = true → (r.armed = none ↔ r.refreshing = true)

/-! ## Cancelling, ending and arming -/

theorem cancel_tokens (r : Refresher) :
    r.cancel.timers.map RefreshTimer.token = r.timers.map RefreshTimer.token := by
  simp only [cancel, List.map_map]
  refine List.map_congr_left fun t _ => ?_
  simp only [Function.comp]
  split <;> rfl

theorem cancel_fresh (h : ∀ t ∈ r.timers, t.token < r.nextToken) :
    ∀ t ∈ r.cancel.timers, t.token < r.nextToken := by
  intro t ht
  have : t.token ∈ r.timers.map RefreshTimer.token := by
    rw [← cancel_tokens]; exact List.mem_map_of_mem ht
  obtain ⟨u, hu, hut⟩ := List.mem_map.1 this
  exact hut ▸ h u hu

theorem running_cancel (h : ∀ t ∈ r.running, r.armed = some t.token) : r.cancel.running = [] := by
  refine List.filter_eq_nil_iff.2 fun t ht => ?_
  obtain ⟨u, hu, rfl⟩ := List.mem_map.1 ht
  split
  · simp
  · rename_i hne
    have : u.cancelled ≠ false := fun hc => hne (h u (mem_running.2 ⟨hu, hc⟩))
    simpa using this

theorem forget_tokens (r : Refresher) (token : Nat) :
    ((r.forget token).timers.map RefreshTimer.token).Sublist (r.timers.map RefreshTimer.token) :=
  List.filter_sublist.map _

theorem forget_running (r : Refresher) (token : Nat) :
    (r.forget token).running = r.running.filter fun t => t.token ≠ token := by
  simp only [running, forget, List.filter_filter, Bool.and_comm]

namespace Sound
variable (h : Sound r)
include h

theorem armed_of_running {t : RefreshTimer} (ht : t ∈ r.running) : r.armed = some t.token := by
  have : t.token ∈ r.armed.toList := h.running_eq ▸ List.mem_map_of_mem ht
  simpa using this

theorem running_of_disarmed (ha : r.armed = none) : r.running = [] := by
  simpa [ha] using h.running_eq

theorem running_eq_nil_iff : r.running = [] ↔ r.armed = none := by
  constructor
  · intro hr
    have := h.running_eq
    rw [hr] at this
    cases ha : r.armed <;> simp [ha] at this ⊢
  · exact h.running_of_disarmed

/-- A machine without a timer that is armed, and with a cycle wanted if it is enabled. -/
theorem cancel (e w : Bool) (he : e = true → w = true) (n : Nat) (f : Bool) :
    Sound { r.cancel with enabled := e, refreshing := w, queued := n, inFlight := f } where
  fresh := cancel_fresh h.fresh
  unique := by
    change (r.cancel.timers.map RefreshTimer.token).Nodup
    rw [cancel_tokens]; exact h.unique
  running_eq := by
    change r.cancel.running.map RefreshTimer.token = []
    rw [running_cancel fun t ht => h.armed_of_running ht]; rfl
  disarmed _ := rfl
  armed_iff k := ⟨fun _ => he k, fun _ => rfl⟩

/-- A machine whose cycles and whose wish for one have changed. -/
theorem cycles {w : Bool} (hr : r.enabled = true → w = r.refreshing) (n : Nat) (f : Bool) :
    Sound { r with refreshing := w, queued := n, inFlight := f } where
  fresh := h.fresh
  unique := h.unique
  running_eq := h.running_eq
  disarmed := h.disarmed
  armed_iff he := by
    change r.armed = none ↔ w = true
    rw [hr he]; exact h.armed_iff he

theorem arm (he : r.enabled = true) (interval : Duration) : Sound (r.arm interval) where
  fresh t ht := by
    rcases List.mem_append.1 ht with ht | ht
    · exact Nat.lt_succ_of_lt (cancel_fresh h.fresh t ht)
    · rw [List.mem_singleton.1 ht]; exact Nat.lt_succ_self _
  unique := by
    change ((r.cancel.timers ++ [_]).map RefreshTimer.token).Nodup
    rw [List.map_append, cancel_tokens, List.map_singleton, List.nodup_append]
    refine ⟨h.unique, by simp, fun token ht u hu => ?_⟩
    obtain ⟨t, ht', rfl⟩ := List.mem_map.1 ht
    rw [List.mem_singleton.1 hu]
    exact Nat.ne_of_lt (h.fresh t ht')
  running_eq := by
    have hc : r.cancel.timers.filter (fun t => !t.cancelled) = [] :=
      running_cancel fun t ht => h.armed_of_running ht
    change ((r.cancel.timers ++ [_]).filter _).map RefreshTimer.token = [r.nextToken]
    rw [List.filter_append, hc]; rfl
  disarmed hd := by
    have hd : r.enabled = false := hd
    rw [he] at hd; cases hd
  armed_iff _ := by
    change some r.nextToken = none ↔ false = true
    simp

theorem forget_running {t : RefreshTimer} (ht : t ∈ r.running) :
    (r.forget t.token).running = [] := by
  rw [Refresher.forget_running]
  refine List.filter_eq_nil_iff.2 fun u hu => ?_
  have := (h.armed_of_running ht).symm.trans (h.armed_of_running hu)
  simpa using (Option.some.inj this).symm

/-- A machine after the timer that was armed has ended. -/
theorem ended {t : RefreshTimer} (ht : t ∈ r.running) (e w : Bool) (he : e = true → w = true)
    (n : Nat) :
    Sound { (r.forget t.token).cancel with enabled := e, refreshing := w, queued := n } where
  fresh := by
    change ∀ u ∈ (r.forget t.token).cancel.timers, u.token < r.nextToken
    exact cancel_fresh fun u hu => h.fresh u ((List.mem_filter.1 hu).1)
  unique := by
    change ((r.forget t.token).cancel.timers.map RefreshTimer.token).Nodup
    rw [cancel_tokens]; exact (forget_tokens r _).nodup h.unique
  running_eq := by
    change (r.forget t.token).cancel.running.map RefreshTimer.token = []
    rw [running_cancel fun u hu => by rw [h.forget_running ht] at hu; cases hu]; rfl
  disarmed _ := rfl
  armed_iff k := ⟨fun _ => he k, fun _ => rfl⟩

theorem forgotten {t : RefreshTimer} (ht : t ∈ r.timers) (hc : t.cancelled = true) :
    Sound (r.forget t.token) where
  fresh u hu := h.fresh u ((List.mem_filter.1 hu).1)
  unique := (forget_tokens r _).nodup h.unique
  running_eq := by
    have : r.running.filter (fun u => u.token ≠ t.token) = r.running := by
      refine List.filter_eq_self.2 fun u hu => ?_
      have hu' := mem_running.1 hu
      have : u.token ≠ t.token := fun k => by
        have := List.inj_on_of_nodup_map h.unique hu'.1 ht k
        rw [this, hc] at hu'; cases hu'.2
      simpa using this
    rw [Refresher.forget_running, this]; exact h.running_eq
  disarmed := h.disarmed
  armed_iff := h.armed_iff

end Sound

/-! ## Steps and runs -/

theorem Turn.sound {move : RefreshMove} {s : Refresher} {es : List RefreshEffect}
    (t : Turn r move s es) (h : Sound r) : Sound s := by
  cases t with
  | enabledAlready | noTurn | noCycle | noTimer => exact h
  | enabled => exact h.cancel true true (fun _ => rfl) _ r.inFlight
  | disabled => exact h.cancel false r.refreshing nofun r.queued r.inFlight
  | requested => exact h.cancel r.enabled true (fun _ => rfl) _ r.inFlight
  | begun => exact h.cycles (fun _ => rfl) _ _
  | refused _ _ he => exact h.cycles (by simp [he]) _ r.inFlight
  | emptied => exact h.cancel false false nofun r.queued _
  | armed _ _ _ he => exact (h.cycles (fun _ => rfl) r.queued false).arm he _
  | lapsed _ _ _ he => exact h.cycles (by simp [he]) r.queued _
  | brokeOff => exact h.cycles (fun _ => rfl) r.queued _
  | forgotten _ ht hc => exact h.forgotten ht hc
  | elapsed ht => exact h.ended ht r.enabled true (fun _ => rfl) _
  | unreachable ht => exact h.ended ht false r.refreshing nofun r.queued

theorem Sound.step (h : Sound r) (move : RefreshMove) : Sound (r.step move).1 :=
  (turn r move).sound h

theorem Sound.run (h : Sound r) (moves : List RefreshMove) : Sound (r.run moves) := by
  induction moves generalizing r with
  | nil => exact h
  | cons move moves ih => exact ih (h.step move)

theorem sound_new (radarId : String) (product : Option String) (retry : Duration) :
    Sound (new radarId product retry) := by
  constructor <;> simp [new, running]

/-- **The timers and switches of every machine.** -/
theorem sound_run_new (radarId : String) (product : Option String) (retry : Duration)
    (moves : List RefreshMove) : Sound ((new radarId product retry).run moves) :=
  (sound_new radarId product retry).run moves

/-! ## Tokens that are not armed any more -/

theorem Turn.retired {move : RefreshMove} {s : Refresher} {es : List RefreshEffect} {token : Nat}
    (t : Turn r move s es) (hlt : token < r.nextToken) (ha : r.armed ≠ some token) :
    token < s.nextToken ∧ s.armed ≠ some token := by
  cases t with
  | enabledAlready | noTurn | begun | refused | noCycle | lapsed | brokeOff | noTimer | forgotten =>
    exact ⟨hlt, ha⟩
  | enabled | disabled | requested | emptied | elapsed | unreachable => exact ⟨hlt, nofun⟩
  | armed =>
    refine ⟨Nat.lt_succ_of_lt hlt, fun h => ?_⟩
    exact Nat.lt_irrefl _ ((Option.some.inj h : r.nextToken = token) ▸ hlt)

theorem retired_run {token : Nat} (hlt : token < r.nextToken) (ha : r.armed ≠ some token)
    (moves : List RefreshMove) : (r.run moves).armed ≠ some token := by
  induction moves generalizing r with
  | nil => exact ha
  | cons move moves ih =>
    obtain ⟨hlt', ha'⟩ := (turn r move).retired hlt ha
    exact ih hlt' ha'

/-- The timer of a token that is not armed ends without effect. -/
theorem Turn.of_retired {s : Refresher} {es : List RefreshEffect} {token : Nat} {how : TimerEnd}
    (t : Turn r (.timerEnds token how) s es) (h : Sound r) (ha : r.armed ≠ some token) :
    (∃ timers, s = { r with timers := timers }) ∧ es = [] := by
  cases t with
  | noTimer => exact ⟨⟨_, rfl⟩, rfl⟩
  | forgotten => exact ⟨⟨_, rfl⟩, rfl⟩
  | elapsed ht => exact absurd (h.armed_of_running ht) ha
  | unreachable ht => exact absurd (h.armed_of_running ht) ha

end Refresher

end RadarFeed
