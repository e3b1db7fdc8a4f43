import RadarFeed.Proofs.Feed.Sound

/-!
Locks of loads.

Of the loads that share a lock one at a time is at work, and the others wait (`exclusive_run`). A
load takes its lock with its first step (`Advances.ready_or_holds`), and nobody else can take it
until that load has its result.
-/

namespace RadarFeed

/-- The task whose load a move brings on. -/
def FeedMove.loadTask? : FeedMove → Option Nat
  | .beginLoad id _ => some id
  | .object id _ => some id
  | .contents id _ => some id
  | .decoded id _ _ => some id
  | .gridsReady id => some id
  | _ => none

namespace Load

variable {l : Load}

theorem holdsLock_of_initializing {r : Record} {owner : Nat} (h : l.phase = .initializing r owner) :
    l.holdsLock = true := by
  unfold holdsLock
  rw [h]

theorem holdsLock_eq_false_iff :
    l.holdsLock = false ↔ l.phase = .waiting ∨ ∃ result, l.phase = .answering result := by
  unfold holdsLock
  cases l.phase <;> simp

end Load

namespace Feed

variable {f : Feed}

section
variable {move : FeedMove} {id : Nat} {l : Load} {phase : LoadPhase}

theorem Advances.loadTask? (h : f.Advances move id l phase) : move.loadTask? = some id := by
  cases h with
  | enters h => cases h <;> rfl
  | routed | stored => rfl

/-- The moves of loads are always open. -/
theorem move_of_loadTask? (h : move.loadTask? = some id) : f.move move = (f.apply move).sweep := by
  cases move <;> first | rfl | cases h

/-- A load goes on only if it is at work or can have its lock. -/
theorem Advances.ready_or_holds (h : f.Advances move id l phase) :
    f.Ready l ∨ l.holdsLock = true := by
  have working : ∀ {p}, l.phase = p → ({ l with phase := p } : Load).holdsLock = true →
      l.holdsLock = true := by
    rintro p rfl h
    exact h
  cases h with
  | enters h =>
    cases h with
    | atTime h | unknown h | atKey h | fetches h | indexed h | reads h | streamed h | broken h =>
      exact .inl h
    | fetched h | missing h | read h | unreadable h | undecoded h => exact .inr (working h rfl)
  | routed h | stored h => exact .inr (working h rfl)

theorem isLocked_of_holds (hl : f.load? id = some l) (hh : l.holdsLock = true) :
    f.isLocked l.lock = true := by
  obtain ⟨t, ht, -, hw⟩ := exists_task_of_load? hl
  refine List.any_eq_true.2 ⟨t, ht, ?_⟩
  simp [hw, hh]

theorem Sound.load?_eq (h : f.Sound) {t : Task} (ht : t ∈ f.tasks) (hw : t.work = .load l) :
    f.load? t.id = some l := by
  refine load?_eq_some_iff.2 ?_
  have hfind : f.tasks.find? (fun x => x.id = t.id) = some t := by
    have hd : (f.tasks.map Task.id).Nodup := h.distinct
    generalize f.tasks = s at ht hd
    induction s with
    | nil => cases ht
    | cons x s ih =>
      obtain ⟨hx, hd⟩ := List.nodup_cons.1 hd
      rcases List.mem_cons.1 ht with rfl | ht
      · simp
      · have hne : ¬ x.id = t.id := fun he => hx (he ▸ List.mem_map_of_mem ht)
        simp [hne, ih ht hd]
  unfold work?
  rw [hfind, Option.map_some, hw]

theorem Sound.exists_holder (h : f.Sound) {lock : Lock} (hl : f.isLocked lock = true) :
    ∃ id l, f.load? id = some l ∧ l.holdsLock = true ∧ l.lock = lock := by
  obtain ⟨t, ht, hw⟩ := List.any_eq_true.1 hl
  cases hk : t.work with
  | load l =>
    rw [hk] at hw
    simp only [Bool.and_eq_true, decide_eq_true_eq] at hw
    exact ⟨t.id, l, h.load?_eq ht hk, hw⟩
  | cycle | timer | products => rw [hk] at hw; cases hw

end

/-! ## Exclusion -/

/-- No two loads hold the same lock. -/
def Exclusive (f : Feed) : Prop :=
  ∀ ⦃i j k l⦄, f.load? i = some k → f.load? j = some l → k.holdsLock = true → l.holdsLock = true →
    k.lock = l.lock → i = j

/-- A load that can have its lock is the only one that gets it. -/
theorem Ready.not_held {i : Nat} {k l : Load} (h : f.Ready l) (hk : f.load? i = some k)
    (hh : k.holdsLock = true) : k.lock ≠ l.lock := by
  intro he
  have hlocked := isLocked_of_holds hk hh
  rw [he, h.unlocked] at hlocked
  cases hlocked

theorem Exclusive.apply (h : f.Exclusive) (hs : f.Sound) (move : FeedMove) :
    (f.apply move).Exclusive := by
  intro i j k l hk hl hkh hlh he
  rcases load?_of_apply hs.fresh hk with hk | ⟨k', p, hk', hka, rfl⟩ | ⟨-, _, _, _, -, rfl⟩
  · rcases load?_of_apply hs.fresh hl with hl | ⟨l', q, hl', hla, rfl⟩ | ⟨-, _, _, _, -, rfl⟩
    · exact h hk hl hkh hlh he
    · rcases hla.ready_or_holds with hr | hlh'
      · exact absurd he (hr.not_held hk hkh)
      · exact h hk hl' hkh hlh' he
    · cases hlh
  · rcases load?_of_apply hs.fresh hl with hl | ⟨l', q, hl', hla, rfl⟩ | ⟨-, _, _, _, -, rfl⟩
    · rcases hka.ready_or_holds with hr | hkh'
      · exact absurd he.symm (hr.not_held hl hlh)
      · exact h hk' hl hkh' hlh he
    · exact Option.some.inj (hka.loadTask?.symm.trans hla.loadTask?)
    · cases hlh
  · cases hkh

theorem Exclusive.sweep (h : f.Exclusive) : f.sweep.Exclusive := by
  intro i j k l hk hl
  rw [load?_sweep] at hk hl
  exact h hk hl

theorem Exclusive.move (h : f.Exclusive) (hs : f.Sound) (move : FeedMove) :
    (f.move move).Exclusive := by
  unfold Feed.move
  split
  · exact (h.apply hs move).sweep
  · exact h

theorem exclusive_run (sites : SiteTable) (settings : Settings) (moves : List FeedMove) :
    ((new sites settings).run moves).Exclusive := by
  have hnew : (new sites settings).Exclusive := by
    intro i j k l hk
    cases hk
  refine (run_of_move (I := fun g => g.Sound ∧ g.Exclusive)
    ⟨sound_new sites settings, hnew⟩ fun g move _ hg => ?_).2
  exact ⟨hg.1.move move, hg.2.move hg.1 move⟩

end Feed

end RadarFeed
