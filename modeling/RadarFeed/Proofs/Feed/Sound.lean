import RadarFeed.Proofs.Feed.Shared
import RadarFeed.Proofs.Feed.Tasks

/-!
What holds of a feed after any moves.

A manager that somebody holds lives, machines are sound, and those of managers that have ended are
disabled: only who holds a manager enables its machines. Numbers of tasks are not used twice.
-/

namespace RadarFeed

namespace Feed

variable {f : Feed}

/-- What moves keep holds after a run. -/
theorem run_of_move {I : Feed → Prop} {moves : List FeedMove} (hf : I f)
    (h : ∀ g, ∀ move ∈ moves, I g → I (g.move move)) : I (f.run moves) := by
  induction moves generalizing f with
  | nil => exact hf
  | cons move moves ih =>
    have hm : I (f.move move) := h f move List.mem_cons_self hf
    exact ih hm fun g m hg => h g m (List.mem_cons_of_mem _ hg)

/-- What holds of the managers and tasks of every feed. -/
structure Sound (f : Feed) : Prop where
  held : ∀ {n}, n ∈ f.holders → ∃ m, f.manager? n = some m ∧ m.alive = true
  managers : ∀ {n m}, f.manager? n = some m → m.Sound
  fresh : ∀ t ∈ f.tasks, t.id < f.nextTask
  distinct : (f.tasks.map Task.id).Nodup

theorem Causes.ne_close {move : FeedMove} {n : Nat} {c : ManagerMove} (h : f.Causes move n c) :
    c ≠ .close := by
  cases h <;> nofun

/-- Only who holds a manager enables its machines. -/
theorem Causes.held {move : FeedMove} {n : Nat} {p : Option String}
    (h : f.Causes move n (.step p .enable)) (ha : f.allows move = true) : n ∈ f.holders := by
  generalize hc : ManagerMove.step p .enable = c at h
  cases h with
  | volumes | product => simpa [allows] using ha
  | begins | ends | timer => cases hc
  | _ => cases hc

theorem manager?_apply {n : Nat} {m : Manager} (hm : f.manager? n = some m) (move : FeedMove) :
    ∃ cs, (∀ c ∈ cs, f.Causes move n c) ∧
      (f.apply move).manager? n = some (m.changes f.retry cs) :=
  (managers_apply f move).changes hm

theorem alive_apply {n : Nat} {m : Manager} (hm : f.manager? n = some m) (move : FeedMove) :
    ∃ m', (f.apply move).manager? n = some m' ∧ m'.alive = m.alive ∧ m'.radarId = m.radarId := by
  obtain ⟨cs, hcs, h⟩ := manager?_apply hm move
  refine ⟨_, h, Manager.alive_changes (fun c hc => (hcs c hc).ne_close) _ m, ?_⟩
  exact Manager.radarId_changes _ m cs

theorem living?_eq_some_iff {id : String} {n : Nat} :
    f.living? id = some n ↔
      f.registry.get? id = some n ∧ ∃ m, f.manager? n = some m ∧ m.alive = true := by
  simp only [living?, Option.bind_eq_bind, Option.bind_eq_some_iff]
  constructor
  · rintro ⟨k, hk, m, hm, h⟩
    split at h
    · rw [← Option.some.inj h]
      exact ⟨hk, m, hm, ‹_›⟩
    · cases h
  · rintro ⟨hn, m, hm, hal⟩
    exact ⟨n, hn, m, hm, if_pos hal⟩

theorem manager_alive (f : Feed) (radarId : String) :
    ∃ m, (f.manager radarId).1.manager? (f.manager radarId).2 = some m ∧ m.alive = true := by
  unfold manager
  dsimp only
  cases hl : f.living? (Ascii.upper radarId) with
  | some n => exact (living?_eq_some_iff.1 hl).2
  | none =>
    obtain ⟨log, h⟩ := f.create_eq (Ascii.upper radarId)
    simp only [h]
    exact ⟨_, List.getElem?_concat_length, rfl⟩

theorem Sound.apply (h : f.Sound) {move : FeedMove} (ha : f.allows move = true) :
    (f.apply move).Sound where
  held {n} hn := by
    rcases holders_apply f move hn with hn | ⟨radarId, rfl, rfl⟩
    · obtain ⟨m, hm, hal⟩ := h.held hn
      obtain ⟨m', hm', hal', -⟩ := alive_apply hm move
      exact ⟨m', hm', hal'.trans hal⟩
    · exact f.manager_alive radarId
  managers {n m} hm := by
    -- while it is changed, a manager that somebody holds goes on living
    refine ((managers_apply f move).preserves
      (I := fun n m => m.Sound ∧ (n ∈ f.holders → m.alive = true)) ?_ ?_ ?_ n m hm).1
    · exact fun n radarId site _ _ => ⟨Manager.sound_new _ _ _, fun _ => rfl⟩
    · rintro n m c hc ⟨hs, hal⟩
      refine ⟨hs.change _ fun p hp => ?_, fun hn => ?_⟩
      · subst hp
        exact hal (hc.held ha)
      · rw [Manager.alive_change_of_ne hc.ne_close]
        exact hal hn
    · intro n m hm
      refine ⟨h.managers hm, fun hn => ?_⟩
      obtain ⟨m', hm', hal⟩ := h.held hn
      rw [show f.manager? n = some m from hm] at hm'
      exact Option.some.inj hm' ▸ hal
  fresh := ((tasks_apply f move).fresh h.fresh).2
  distinct := (tasks_apply f move).nodup h.fresh h.distinct

theorem swept_of_ended {n : Nat} {m : Manager} (hd : m.alive = false) : f.swept n m = m := by
  rw [swept, hd]
  rfl

theorem isNeeded_of_held {n : Nat} (hn : n ∈ f.holders) : f.isNeeded n = true := by
  unfold isNeeded
  rw [List.contains_iff_mem.2 hn, Bool.true_or]

theorem isNeeded_of_keeps {t : Task} (ht : t ∈ f.tasks) {n : Nat} (hk : t.work.keeps n = true) :
    f.isNeeded n = true := by
  unfold isNeeded
  rw [List.any_eq_true.2 ⟨t, ht, hk⟩, Bool.or_true]

/-- A manager that somebody needs does not end. -/
theorem manager?_sweep_of_needed {n : Nat} (hn : f.isNeeded n = true) :
    f.sweep.manager? n = f.manager? n := by
  have hs : f.swept n = id := by
    funext m
    simp [swept, hn]
  rw [manager?_sweep, hs, Option.map_id_fun, id]

theorem Sound.sweep (h : f.Sound) : f.sweep.Sound := by
  have held : ∀ {n}, n ∈ f.holders → ∃ m, f.sweep.manager? n = some m ∧ m.alive = true := by
    intro n hn
    rw [manager?_sweep_of_needed (isNeeded_of_held hn)]
    exact h.held hn
  have managers : ∀ {n m}, f.sweep.manager? n = some m → m.Sound := by
    intro n m' hm'
    rw [manager?_sweep] at hm'
    obtain ⟨m, hm, rfl⟩ := Option.map_eq_some_iff.1 hm'
    unfold swept
    split
    · exact (h.managers hm).change _ nofun
    · exact h.managers hm
  obtain ⟨_, _, he, -⟩ := f.sweep_eq
  rw [he] at held managers ⊢
  exact ⟨held, managers, h.fresh, h.distinct⟩

theorem Sound.move (h : f.Sound) (move : FeedMove) : (f.move move).Sound := by
  unfold Feed.move
  split
  · exact (h.apply ‹_›).sweep
  · exact h

theorem Sound.run (h : f.Sound) (moves : List FeedMove) : (f.run moves).Sound :=
  run_of_move h fun _ move _ hg => hg.move move

theorem sound_new (sites : SiteTable) (settings : Settings) : (new sites settings).Sound :=
  ⟨by simp [new], by simp [new, manager?], by simp [new], by simp [new]⟩

theorem sound_run_new (sites : SiteTable) (settings : Settings) (moves : List FeedMove) :
    ((new sites settings).run moves).Sound :=
  (sound_new sites settings).run moves

end Feed

end RadarFeed
