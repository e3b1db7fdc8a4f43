import RadarFeed.Refresh.Machine

/-!
What one step of a machine can do.

`Turn` lists the cases: to each move, the states in which it has an effect, the state after it and
what it does besides writing to the log. `turn` says that every step is one of them; what is true of
all steps is proved by cases on it. `run` makes several steps, and `deeds` collects what they do.
-/

namespace RadarFeed

/-- An effect that only the log shows. -/
def RefreshEffect.isLine : RefreshEffect → Bool
  | .log _ => true
  | _ => false

namespace CycleAnswer

/-- The source has no objects at all. -/
def isEmpty (a : CycleAnswer) : Bool :=
  match a.news with
  | .ok ⟨0, 0⟩ => true
  | _ => false

/-- The time after which a source is asked again, unless it has no objects. -/
def interval? (a : CycleAnswer) (retry : Duration) : Option Duration :=
  match a.news with
  | .ok ⟨_ + 1, _⟩ => nextInterval retry a.outlook a.now
  | _ => some retry

/-- The time of the newest object, if it is news. -/
def newest? (a : CycleAnswer) : Option Instant :=
  match a.news with
  | .ok ⟨_ + 1, _⟩ => a.outlook.latestKey.bind fun _ => a.outlook.latestTime
  | _ => none

end CycleAnswer

namespace Refresher

/-! ## States after a step -/

/-- The timers that have neither ended nor been cancelled. -/
def running (r : Refresher) : List RefreshTimer :=
  r.timers.filter fun t => !t.cancelled

/-- The machine when a timer has ended. -/
def forget (r : Refresher) (token : Nat) : Refresher :=
  { r with timers := r.timers.filter fun t => t.token ≠ token }

/-- The machine when a cycle has ended that held its turn. -/
def endTurn (r : Refresher) : Refresher :=
  { r with inFlight := false }

/-- The machine with a new timer armed in the place of the old one. -/
def arm (r : Refresher) (interval : Duration) : Refresher :=
  { r.cancel with
    refreshing := false
    armed := some r.nextToken
    interval := some interval
    timers := r.cancel.timers ++ [⟨r.nextToken, interval, false⟩]
    nextToken := r.nextToken + 1 }

/-- The event that the end of a cycle publishes. -/
def published (r : Refresher) (a : CycleAnswer) : List RefreshEffect :=
  (a.newest?.map fun t => .event (.newData r.group r.product t)).toList

/-! ## Steps -/

/-- The steps of a machine `r`: a move, the state after it, and what is done besides writing to the
log. -/
inductive Turn (r : Refresher) : RefreshMove → Refresher → List RefreshEffect → Prop where
  | enabledAlready : r.enabled = true → Turn r .enable r []
  | enabled : r.enabled = false →
      Turn r .enable
        { r.cancel with enabled := true, refreshing := true, queued := r.queued + 1 } [.cycle]
  | disabled : Turn r .disable { r.cancel with enabled := false } []
  | requested :
      Turn r .refresh { r.cancel with refreshing := true, queued := r.queued + 1 } [.cycle]
  /-- No cycle waits, or another one has its turn. -/
  | noTurn : r.queued = 0 ∨ r.inFlight = true → Turn r .cycleBegins r []
  | begun : 0 < r.queued → r.inFlight = false → r.enabled = true →
      Turn r .cycleBegins { r with queued := r.queued - 1, inFlight := true } []
  | refused : 0 < r.queued → r.inFlight = false → r.enabled = false →
      Turn r .cycleBegins { r with queued := r.queued - 1, refreshing := false } []
  | noCycle (a : CycleAnswer) : r.inFlight = false → Turn r (.cycleEnds a) r []
  /-- The source has no objects. -/
  | emptied {a : CycleAnswer} : r.inFlight = true → a.isEmpty = true →
      Turn r (.cycleEnds a) { r.endTurn.cancel with enabled := false, refreshing := false } []
  | armed {a : CycleAnswer} {interval : Duration} : r.inFlight = true → a.isEmpty = false →
      a.interval? r.retry = some interval → r.enabled = true →
      Turn r (.cycleEnds a) (r.endTurn.arm interval) (r.published a ++ [.timer r.nextToken])
  /-- The machine was disabled while the source was asked. -/
  | lapsed {a : CycleAnswer} {interval : Duration} : r.inFlight = true → a.isEmpty = false →
      a.interval? r.retry = some interval → r.enabled = false →
      Turn r (.cycleEnds a) { r.endTurn with refreshing := false } (r.published a)
  /-- The interval to the next cycle cannot be computed. -/
  | brokeOff {a : CycleAnswer} : r.inFlight = true → a.isEmpty = false →
      a.interval? r.retry = none → Turn r (.cycleEnds a) r.endTurn []
  | noTimer {token : Nat} (how : TimerEnd) : (∀ t ∈ r.timers, t.token ≠ token) →
      Turn r (.timerEnds token how) r []
  | forgotten {t : RefreshTimer} (how : TimerEnd) : t ∈ r.timers → t.cancelled = true →
      Turn r (.timerEnds t.token how) (r.forget t.token) []
  | elapsed {t : RefreshTimer} : t ∈ r.running →
      Turn r (.timerEnds t.token .elapsed)
        { (r.forget t.token).cancel with refreshing := true, queued := r.queued + 1 } [.cycle]
  | unreachable {t : RefreshTimer} : t ∈ r.running →
      Turn r (.timerEnds t.token .unreachable)
        { (r.forget t.token).cancel with enabled := false } []

theorem mem_running {r : Refresher} {t : RefreshTimer} :
    t ∈ r.running ↔ t ∈ r.timers ∧ t.cancelled = false := by
  simp [running]

theorem disable_eq (r : Refresher) :
    r.disable.1 = { r.cancel with enabled := false } ∧
      r.disable.2.filter (fun e => !e.isLine) = [] := by
  unfold disable
  split
  · exact ⟨rfl, rfl⟩
  · rename_i h
    have h : r.cancel.enabled = false := by simpa [cancel] using h
    exact ⟨by rw [← h], rfl⟩

theorem schedule_of_enabled {r : Refresher} (h : r.enabled = true) (interval : Duration) :
    (r.schedule interval).1 = r.arm interval ∧
      (r.schedule interval).2.filter (fun e => !e.isLine) = [.timer r.nextToken] := by
  unfold schedule
  dsimp only
  rw [if_pos h]
  exact ⟨rfl, rfl⟩

theorem schedule_of_disabled {r : Refresher} (h : r.enabled = false) (interval : Duration) :
    r.schedule interval = ({ r with refreshing := false }, []) := by
  simp [schedule, h]

theorem filter_announce (r : Refresher) (o : Outlook) :
    (r.announce o).filter (fun e => !e.isLine) =
      ((o.latestKey.bind fun _ => o.latestTime).map fun t =>
        RefreshEffect.event (.newData r.group r.product t)).toList := by
  unfold announce
  cases o.latestKey <;> cases o.latestTime <;> simp [line, RefreshEffect.isLine]

theorem turn_enable (r : Refresher) :
    Turn r .enable r.enable.1 (r.enable.2.filter fun e => !e.isLine) := by
  unfold enable
  split
  · exact .enabledAlready ‹_›
  · exact .enabled (by simpa using ‹¬ r.enabled = true›)

theorem turn_schedule {r : Refresher} {a : CycleAnswer} {interval : Duration}
    (hf : r.inFlight = true) (ha : a.isEmpty = false) (hi : a.interval? r.retry = some interval) :
    Turn r (.cycleEnds a) (r.endTurn.schedule interval).1
      (r.published a ++ (r.endTurn.schedule interval).2.filter fun e => !e.isLine) := by
  rcases he : r.enabled with _ | _
  · rw [schedule_of_disabled (r := r.endTurn) he, List.filter_nil, List.append_nil]
    exact .lapsed hf ha hi he
  · obtain ⟨h₁, h₂⟩ := schedule_of_enabled (r := r.endTurn) he interval
    rw [h₁, h₂]
    exact .armed hf ha hi he

theorem turn_takeNews {r : Refresher} (hf : r.inFlight = true) (fresh total : Nat) (o : Outlook)
    (now : Instant) :
    Turn r (.cycleEnds ⟨.ok ⟨fresh + 1, total⟩, o, now⟩)
      (r.endTurn.takeNews (fresh + 1) ⟨.ok ⟨fresh + 1, total⟩, o, now⟩).1
      ((r.endTurn.takeNews (fresh + 1) ⟨.ok ⟨fresh + 1, total⟩, o, now⟩).2.filter
        fun e => !e.isLine) := by
  unfold takeNews
  dsimp only
  split
  · rename_i hi
    exact .brokeOff hf rfl hi
  · rename_i interval hi
    have h := turn_schedule (a := ⟨.ok ⟨fresh + 1, total⟩, o, now⟩) hf rfl hi
    have hp : (r.endTurn.announce o).filter (fun e => !e.isLine) =
        r.published ⟨.ok ⟨fresh + 1, total⟩, o, now⟩ := filter_announce _ _
    rw [← hp, ← List.filter_append] at h
    exact h

theorem turn_cycleEnds (r : Refresher) (a : CycleAnswer) :
    Turn r (.cycleEnds a) (r.cycleEnds a).1 ((r.cycleEnds a).2.filter fun e => !e.isLine) := by
  unfold cycleEnds
  split
  · rename_i hf
    obtain ⟨news, outlook, now⟩ := a
    rcases news with e | ⟨_ | fresh, total⟩
    · exact turn_schedule hf rfl rfl
    · cases total with
      | zero =>
        obtain ⟨h₁, h₂⟩ := disable_eq { r.endTurn with refreshing := false }
        have h : Turn r _ _ _ := .emptied (a := ⟨.ok ⟨0, 0⟩, outlook, now⟩) hf rfl
        rw [← h₂] at h
        exact h₁ ▸ h
      | succ total => exact turn_schedule hf rfl rfl
    · exact turn_takeNews hf fresh total outlook now
  · exact .noCycle _ (by simpa using ‹¬ r.inFlight = true›)

/-- **Every step of a machine is one of the cases of `Turn`.** -/
theorem turn (r : Refresher) (move : RefreshMove) :
    Turn r move (r.step move).1 ((r.step move).2.filter fun e => !e.isLine) := by
  cases move with
  | enable => exact turn_enable r
  | disable =>
    rw [step, (disable_eq r).1, (disable_eq r).2]
    exact .disabled
  | refresh => exact .requested
  | cycleBegins =>
    simp only [step, cycleBegins]
    split
    · exact .noTurn ‹_›
    · rename_i h
      simp only [not_or, Bool.not_eq_true] at h
      split
      · exact .begun (Nat.pos_of_ne_zero h.1) h.2 ‹_›
      · exact .refused (Nat.pos_of_ne_zero h.1) h.2 (by simpa using ‹¬ r.enabled = true›)
  | cycleEnds a => exact turn_cycleEnds r a
  | timerEnds token how =>
    simp only [step, timerEnds]
    split
    · rename_i h
      exact .noTimer how (by simpa using h)
    · rename_i t h
      have ht := List.mem_of_find?_eq_some h
      have : t.token = token := by simpa using List.find?_some h
      subst this
      split
      · exact .forgotten how ht ‹_›
      · have hr : t ∈ r.running := mem_running.2 ⟨ht, by simpa using ‹¬ t.cancelled = true›⟩
        cases how with
        | elapsed => exact .elapsed hr
        | unreachable =>
          obtain ⟨h₁, h₂⟩ := disable_eq (r.forget t.token)
          have h : Turn r _ _ _ := .unreachable hr
          rw [← h₂] at h
          exact h₁ ▸ h

theorem Turn.product_eq {r s : Refresher} {move : RefreshMove} {es : List RefreshEffect}
    (t : Turn r move s es) : s.product = r.product := by
  cases t <;> rfl

/-- Subscribers are only told of objects of the machine's own group and product. -/
theorem Turn.event {r s : Refresher} {move : RefreshMove} {es : List RefreshEffect}
    (t : Turn r move s es) {e : ProductEvent} (he : .event e ∈ es) :
    ∃ time, e = .newData r.group r.product time := by
  have hp : ∀ {a : CycleAnswer}, .event e ∈ r.published a →
      ∃ time, e = .newData r.group r.product time := by
    intro a h
    simp only [published, Option.mem_toList, Option.map_eq_some_iff] at h
    obtain ⟨time, -, h⟩ := h
    exact ⟨time, (RefreshEffect.event.inj h).symm⟩
  cases t with
  | armed => exact (List.mem_append.1 he).elim hp fun h => by simp at h
  | lapsed => exact hp he
  | _ => simp at he

/-! ## Runs -/

/-- Where a move of a kind stands in a run that has grown by one move. -/
theorem exists_split_concat {α β : Type} {l : List α} {x : α} {f : β → α}
    {P : List α → β → List α → Prop} :
    (∃ s b t, l ++ [x] = s ++ f b :: t ∧ P s b t) ↔
      (∃ b, x = f b ∧ P l b []) ∨ ∃ s b t, l = s ++ f b :: t ∧ P s b (t ++ [x]) := by
  constructor
  · rintro ⟨s, b, t, he, hp⟩
    rcases List.eq_nil_or_concat t with rfl | ⟨t, y, rfl⟩
    · obtain ⟨rfl, h⟩ := List.append_inj' he rfl
      exact .inl ⟨b, (List.cons.inj h).1, hp⟩
    · have he : l ++ [x] = (s ++ f b :: t) ++ [y] := by simpa using he
      obtain ⟨rfl, h⟩ := List.append_inj' he rfl
      obtain ⟨rfl, -⟩ := List.cons.inj h
      exact .inr ⟨s, b, t, rfl, by simpa using hp⟩
  · rintro (⟨b, rfl, hp⟩ | ⟨s, b, t, rfl, hp⟩)
    · exact ⟨l, b, [], rfl, hp⟩
    · exact ⟨s, b, t ++ [x], by simp, hp⟩

/-- The machine after several steps. -/
def run (r : Refresher) : List RefreshMove → Refresher
  | [] => r
  | move :: moves => (r.step move).1.run moves

/-- What several steps do besides writing to the log. -/
def deeds (r : Refresher) : List RefreshMove → List RefreshEffect
  | [] => []
  | move :: moves => ((r.step move).2.filter fun e => !e.isLine) ++ (r.step move).1.deeds moves

theorem run_append (r : Refresher) (s t : List RefreshMove) : r.run (s ++ t) = (r.run s).run t := by
  induction s generalizing r with
  | nil => rfl
  | cons move s ih => exact ih _

theorem deeds_append (r : Refresher) (s t : List RefreshMove) :
    r.deeds (s ++ t) = r.deeds s ++ (r.run s).deeds t := by
  induction s generalizing r with
  | nil => rfl
  | cons move s ih => simp only [List.cons_append, deeds, run, ih, List.append_assoc]

theorem deeds_singleton (r : Refresher) (move : RefreshMove) :
    r.deeds [move] = (r.step move).2.filter fun e => !e.isLine := by
  simp [deeds]

theorem product_run (r : Refresher) (moves : List RefreshMove) :
    (r.run moves).product = r.product := by
  induction moves generalizing r with
  | nil => rfl
  | cons move moves ih => exact (ih _).trans (turn r move).product_eq

/-- The last step of a run, as a case of `Turn`. -/
theorem turn_run (r : Refresher) (moves : List RefreshMove) (move : RefreshMove) :
    Turn (r.run moves) move (r.run (moves ++ [move])) ((r.run moves).deeds [move]) := by
  rw [run_append, deeds_singleton]
  exact turn _ move

end Refresher

end RadarFeed
