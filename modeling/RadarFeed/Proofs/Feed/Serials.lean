import RadarFeed.Proofs.Feed.Courses
import RadarFeed.Proofs.Feed.FirstRecord

/-!
Which manager has a record.

Every file that is decoded makes a record with a number of its own, above all that were made before.
The load that has decoded it holds it until it is stored, which happens once (`Unique`): so a record
that one manager holds never gets to another (`Unique.elsewhere`).
-/

namespace RadarFeed

namespace Feed

variable {f : Feed}

/-- A load has a record that is not stored yet. -/
def Pending (f : Feed) (task : Nat) (r : Record) : Prop :=
  ∃ l owner, f.load? task = some l ∧ l.phase = .initializing r owner

section
variable {task : Nat} {r : Record} {move : FeedMove}

theorem nextSerial_manager (f : Feed) (radarId : String) :
    (f.manager radarId).1.nextSerial = f.nextSerial := by
  obtain ⟨_, _, _, _, h⟩ := f.manager_eq radarId
  rw [h]

theorem nextSerial_stepMachine (f : Feed) (id : MachineId) (step : RefreshMove) :
    (f.stepMachine id step).nextSerial = f.nextSerial := by
  obtain ⟨_, _, _, _, h⟩ := f.stepMachine_eq id step
  rw [h]

theorem nextSerial_sweep (f : Feed) : f.sweep.nextSerial = f.nextSerial := by
  obtain ⟨_, _, h, -⟩ := f.sweep_eq
  rw [h]

/-- Numbers are never given out again. -/
theorem nextSerial_apply (f : Feed) (move : FeedMove) :
    f.nextSerial ≤ (f.apply move).nextSerial := by
  have h := f.step move
  generalize f.apply move = g at h
  have same : ∀ {g : Feed}, g.nextSerial = f.nextSerial → f.nextSerial ≤ g.nextSerial :=
    fun he => Nat.le_of_eq he.symm
  cases h with
  | routed => exact Nat.le_succ _
  | held => exact same (f.nextSerial_manager _)
  | @found n path request r log _ =>
    obtain ⟨_, _, h⟩ := complete_eq { f with log := log } request (some r)
    exact same (by rw [h])
  | @dropped n product time request log _ =>
    obtain ⟨_, h⟩ := dropRequest_eq { f with log := log } request
    exact same (by rw [h])
  | @answered id l result _ _ =>
    obtain ⟨_, _, h⟩ := f.complete_eq l.request result
    exact same (by rw [h]; rfl)
  | @grids n =>
    obtain ⟨_, _, h⟩ := f.computeGrids_eq n
    exact same (by rw [h])
  | @machine n product =>
    obtain ⟨_, _, h⟩ := f.ensureMachine_eq n product
    exact same (by rw [h])
  | @asked id n _ =>
    obtain ⟨_, _, h⟩ := f.ensureMachine_eq n f.settings.defaultLevel3Product
    exact same (by rw [h]; rfl)
  | volumes | product | refused => exact same (f.nextSerial_stepMachine _ _)
  | begun => exact same (f.nextSerial_stepMachine _ .cycleBegins)
  | @ended id machine answer _ => exact same (nextSerial_stepMachine (f.finish id) _ _)
  | @timed id machine token how _ => exact same (nextSerial_stepMachine (f.finish id) _ _)
  | _ => exact Nat.le_refl _

theorem nextSerial_move (f : Feed) (move : FeedMove) : f.nextSerial ≤ (f.move move).nextSerial := by
  unfold Feed.move
  split
  · rw [nextSerial_sweep]
    exact f.nextSerial_apply move
  · exact Nat.le_refl _

/-- A record that is pending was so before, or has been made by the move. -/
theorem pending_move (hs : f.Sound) (h : (f.move move).Pending task r) :
    f.Pending task r ∨ (∃ file remarks, move = .decoded task (.file file) remarks) ∧
      r.serial = f.nextSerial ∧ f.nextSerial < (f.move move).nextSerial := by
  obtain ⟨l, owner, hl, hp⟩ := h
  rcases load?_of_move hs hl with hl | ⟨k, phase, hk, ha, rfl⟩ | ⟨-, _, _, _, -, rfl⟩
  · exact .inl ⟨l, owner, hl, hp⟩
  · have hp : phase = .initializing r owner := hp
    subst hp
    obtain ⟨bytes, file, remarks, hkp, rfl, rfl, rfl⟩ := ha.initializing
    obtain ⟨log, he⟩ := takeDecoded_eq hk hkp file remarks
    refine .inr ⟨⟨file, remarks, rfl⟩, rfl, ?_⟩
    show f.nextSerial < (f.apply (.decoded task (.file file) remarks)).sweep.nextSerial
    rw [nextSerial_sweep, show f.apply (.decoded task (.file file) remarks) = _ from he]
    exact Nat.lt_succ_self _
  · cases hp

/-- A record that a cache holds was held before, or has been stored by the move. -/
theorem cached_of_move {n : Nat} {p : Option String} {t : Instant}
    (h : (f.move move).cached n p t = some r) :
    f.cached n p t = some r ∨
      ∃ task l owner, move = .gridsReady task ∧ f.load? task = some l ∧
        l.phase = .initializing r owner := by
  have kept : ∀ n m, (f.apply move).managers[n]? = some m →
      ∀ x, (m.cacheOf p).get? t = some x → f.cached n p t = some x ∨
        ∃ owner, f.Causes move owner (.store x) := by
    refine (managers_apply f move).preserves ?_ ?_ ?_
    · intro n radarId site _ _ x hx
      cases p <;> cases hx
    · intro n m c hc hm x hx
      rw [Manager.get?_change] at hx
      rcases Option.or_eq_some_iff.1 hx with hx | ⟨-, hx⟩
      · exact hm x hx
      · split at hx
        · split at hx
          · cases hx
            exact .inr ⟨n, hc⟩
          · cases hx
        · cases hx
    · intro n m hm x hx
      exact .inl (cached_eq_some_iff.2 ⟨m, hm, hx⟩)
  unfold Feed.move at h
  split at h
  · obtain ⟨m', hm', hr⟩ := cached_eq_some_iff.1 h
    rw [manager?_sweep] at hm'
    obtain ⟨m, hm, rfl⟩ := Option.map_eq_some_iff.1 hm'
    have hr : (m.cacheOf p).get? t = some r := by
      unfold swept at hr
      split at hr
      · rwa [Manager.get?_change, Option.or_none] at hr
      · exact hr
    refine (kept n m hm r hr).imp_right fun ⟨owner, hc⟩ => ?_
    cases hc with
    | stored hl hp => exact ⟨_, _, _, rfl, hl, hp⟩
  · exact .inl h

end

/-- Each record has a number of its own, and is pending with one load or stored. -/
structure Unique (f : Feed) : Prop where
  sound : f.Sound
  pending : ∀ {task r}, f.Pending task r → r.serial < f.nextSerial
  kept : ∀ {n p t r}, f.cached n p t = some r → r.serial < f.nextSerial
  apart : ∀ {a b r x}, f.Pending a r → f.Pending b x → r.serial = x.serial → a = b
  unstored : ∀ {task r n p t x}, f.Pending task r → f.cached n p t = some x → x.serial ≠ r.serial

theorem unique_new (sites : SiteTable) (settings : Settings) : (new sites settings).Unique where
  sound := sound_new sites settings
  pending h := by
    obtain ⟨_, _, hl, -⟩ := h
    cases hl
  kept h := by cases h
  apart h := by
    obtain ⟨_, _, hl, -⟩ := h
    cases hl
  unstored h := by
    obtain ⟨_, _, hl, -⟩ := h
    cases hl

/-- A record that has been stored is not pending any more, nor is another one with its number. -/
theorem Unique.settled (h : f.Unique) {task other : Nat} {l : Load} {x r : Record} {owner : Nat}
    (hl : f.load? task = some l) (hp : l.phase = .initializing x owner)
    (hr : (f.move (.gridsReady task)).Pending other r) : x.serial ≠ r.serial := by
  intro he
  have hx : f.Pending task x := ⟨l, owner, hl, hp⟩
  rcases pending_move h.sound hr with hr' | ⟨⟨_, _, hm⟩, -⟩
  · cases h.apart hx hr' he
    obtain ⟨k, owner', hk, hkp⟩ := hr
    cases Option.some.inj (hk.symm.trans (load?_gridsReady hl hp))
    cases hkp
  · cases hm

theorem Unique.move (h : f.Unique) (move : FeedMove) : (f.move move).Unique where
  sound := h.sound.move move
  pending {task r} hr := by
    have hle := f.nextSerial_move move
    rcases pending_move h.sound hr with hr | ⟨-, hr, hlt⟩
    · have := h.pending hr
      omega
    · omega
  kept {n p t r} hr := by
    have hle := f.nextSerial_move move
    have hlt : r.serial < f.nextSerial := by
      rcases cached_of_move hr with hr | ⟨task, l, owner, -, hl, hp⟩
      · exact h.kept hr
      · exact h.pending ⟨l, owner, hl, hp⟩
    omega
  apart {a b r x} hr hx he := by
    rcases pending_move h.sound hr with hr | ⟨⟨_, _, hma⟩, hr', -⟩ <;>
      rcases pending_move h.sound hx with hx | ⟨⟨_, _, hmb⟩, hx', -⟩
    · exact h.apart hr hx he
    · have := h.pending hr
      omega
    · have := h.pending hx
      omega
    · cases hma.symm.trans hmb
      rfl
  unstored {task r n p t x} hr hx := by
    rcases cached_of_move hx with hx | ⟨other, l, owner, rfl, hl, hp⟩
    · rcases pending_move h.sound hr with hr | ⟨-, hr, -⟩
      · exact h.unstored hr hx
      · have := h.kept hx
        omega
    · exact h.settled hl hp hr

/-- A record that one manager holds does not get to another. -/
theorem Unique.elsewhere (h : f.Unique) {n k : Nat} {q : Option String} {s : Instant} {r : Record}
    (hk : f.cached k q s = some r)
    (hn : ∀ p t x, f.cached n p t = some x → x.serial ≠ r.serial) (moves : List FeedMove) :
    ∀ p t x, (f.run moves).cached n p t = some x → x.serial ≠ r.serial := by
  refine (run_of_move (I := fun g => g.Unique ∧ g.cached k q s = some r ∧
    ∀ p t x, g.cached n p t = some x → x.serial ≠ r.serial) ⟨h, hk, hn⟩ ?_).2.2
  rintro g move - ⟨hg, hk, hn⟩
  refine ⟨hg.move move, cached_move hk move, fun p t x hx => ?_⟩
  rcases cached_of_move hx with hx | ⟨task, l, owner, -, hl, hp⟩
  · exact hn p t x hx
  · -- what is stored was pending, and the record that `k` holds is not
    exact (hg.unstored ⟨l, owner, hl, hp⟩ hk).symm

theorem unique_run (sites : SiteTable) (settings : Settings) (moves : List FeedMove) :
    ((new sites settings).run moves).Unique :=
  run_of_move (unique_new sites settings) fun _ move _ hg => hg.move move

end Feed

end RadarFeed
