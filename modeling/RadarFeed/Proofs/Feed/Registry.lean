import RadarFeed.Proofs.Feed.Creation
import RadarFeed.Proofs.Manager.Caches

/-!
Managers, the registry and loads.

What the registry names under the id of a site is a manager of that site (`Named`), and as long as
nobody clears it, it names all that live (`Registered`). A load keeps the manager that started it,
and the one that it is about to store a record with (`Loads`); so a record goes to a manager of its
own site, and each record stands where it belongs (`filed`). `Orderly` collects what holds of every
feed, and `Coherent` what holds of a feed that was never cleared.
-/

namespace RadarFeed

namespace Feed

variable {f g : Feed}

/-- The registry names managers by their sites. -/
def Named (f : Feed) : Prop :=
  ∀ ⦃id n⦄, f.registry.get? id = some n → ∃ m, f.manager? n = some m ∧ m.radarId = id

/-- The registry and the managers. -/
structure Registered (f : Feed) : Prop where
  named : f.Named
  living : ∀ {n m}, f.manager? n = some m → m.alive = true → f.registry.get? m.radarId = some n

/-- The managers of loads. -/
structure Loads (f : Feed) : Prop where
  starter : ∀ t ∈ f.tasks, ∀ {l}, t.work = .load l →
    ∃ m, f.manager? l.manager = some m ∧ m.alive = true
  owner : ∀ t ∈ f.tasks, ∀ {l r owner}, t.work = .load l → l.phase = .initializing r owner →
    r = .ofFile r.serial r.file ∧
      ∃ m, f.manager? owner = some m ∧ m.alive = true ∧ m.radarId = r.radarId

/-! ## The registry -/

/-- The registry names a manager by its site, if it lives. -/
def Registers (f : Feed) (n : Nat) : Prop :=
  ∀ m, f.manager? n = some m → m.alive = true → f.registry.get? m.radarId = some n

theorem Registers.living?_eq {n : Nat} (h : f.Registers n) {m : Manager}
    (hm : f.manager? n = some m) (hal : m.alive = true) : f.living? m.radarId = some n :=
  living?_eq_some_iff.2 ⟨h m hm hal, m, hm, hal⟩

theorem Registered.registers (h : f.Registered) (n : Nat) : f.Registers n :=
  fun _ hm hal => h.living hm hal

theorem Registered.living?_eq (h : f.Registered) {n : Nat} {m : Manager}
    (hm : f.manager? n = some m) (hal : m.alive = true) : f.living? m.radarId = some n :=
  (h.registers n).living?_eq hm hal

/-- The manager of a site is of that site. -/
theorem Named.radarId_manager (h : f.Named) (radarId : String) :
    ∃ m, (f.manager radarId).1.manager? (f.manager radarId).2 = some m ∧ m.alive = true ∧
      m.radarId = Ascii.upper radarId := by
  unfold Feed.manager
  dsimp only
  cases hl : f.living? (Ascii.upper radarId) with
  | some n =>
    obtain ⟨hn, m, hm, hal⟩ := living?_eq_some_iff.1 hl
    obtain ⟨m', hm', hid⟩ := h hn
    rw [hm] at hm'
    exact ⟨m, hm, hal, (Option.some.inj hm').symm ▸ hid⟩
  | none =>
    obtain ⟨log, hc⟩ := f.create_eq (Ascii.upper radarId)
    simp only [hc]
    exact ⟨_, List.getElem?_concat_length, rfl, rfl⟩

theorem Named.apply (h : f.Named) (move : FeedMove) : (f.apply move).Named := by
  -- a manager that the registry has named stays
  have still : ∀ {id n}, f.registry.get? id = some n →
      ∃ m, (f.apply move).manager? n = some m ∧ m.radarId = id := by
    intro id n hn
    obtain ⟨m, hm, hid⟩ := h hn
    obtain ⟨m', hm', -, hid'⟩ := alive_apply hm move
    exact ⟨m', hm', hid'.trans hid⟩
  intro id n hn
  rcases f.brings_apply move with ⟨new, hb⟩ | ⟨-, hr⟩
  · rw [hb.registry] at hn
    by_cases hid : id = new
    · rw [hid, Keyed.get?_set_same] at hn
      obtain ⟨m, hm, -, hnew⟩ := hb.manager
      rw [← Option.some.inj hn, hid]
      exact ⟨m, hm, hnew⟩
    · rw [Keyed.get?_set_ne _ hid] at hn
      exact still hn
  · by_cases hc : move = .cleanup
    · subst hc
      cases hn
    · rw [hr hc] at hn
      exact still hn

theorem Registers.apply {n : Nat} (h : f.Registers n) {move : FeedMove} (hc : move ≠ .cleanup) :
    (f.apply move).Registers n := by
  intro m' hm' hal
  -- a manager that was there lived, and was named
  have named : n < f.managers.length → f.registry.get? m'.radarId = some n ∧
      f.living? m'.radarId = some n := by
    intro hlt
    have hm : f.manager? n = some f.managers[n] := List.getElem?_eq_getElem hlt
    obtain ⟨m₁, hm₁, hal', hid⟩ := alive_apply hm move
    rw [hm'] at hm₁
    cases Option.some.inj hm₁
    rw [hid]
    exact ⟨h _ hm (hal' ▸ hal), h.living?_eq hm (hal' ▸ hal)⟩
  have hlt : n < (f.apply move).managers.length := (List.getElem?_eq_some_iff.1 hm').1
  rcases f.brings_apply move with ⟨new, hb⟩ | ⟨hb, hr⟩
  · rw [hb.registry]
    rw [hb.length] at hlt
    rcases Nat.lt_succ_iff_lt_or_eq.1 hlt with hlt | rfl
    · obtain ⟨hreg, hliv⟩ := named hlt
      have hid : m'.radarId ≠ new := by
        intro hid
        rw [hid, hb.absent] at hliv
        cases hliv
      rw [Keyed.get?_set_ne _ hid]
      exact hreg
    · obtain ⟨m, hm, -, hid⟩ := hb.manager
      cases Option.some.inj (hm.symm.trans hm')
      rw [hid]
      exact Keyed.get?_set_same _ _ _
  · rw [hb.length] at hlt
    rw [hr hc]
    exact (named hlt).1

theorem Registered.apply (h : f.Registered) {move : FeedMove} (hc : move ≠ .cleanup) :
    (f.apply move).Registered := by
  refine ⟨h.named.apply move, fun {n m} hm hal => ?_⟩
  exact (h.registers n).apply hc m hm hal

theorem swept_radarId (n : Nat) (m : Manager) : (f.swept n m).radarId = m.radarId := by
  unfold swept
  split <;> rfl

/-- A manager that lives when managers have ended is as it was. -/
theorem swept_of_alive {n : Nat} {m : Manager} (h : (f.swept n m).alive = true) :
    f.swept n m = m := by
  unfold swept at h ⊢
  split at h
  · cases h
  · rw [if_neg ‹_›]

theorem Named.sweep (h : f.Named) : f.sweep.Named := by
  obtain ⟨managers, log, he, hm⟩ := f.sweep_eq
  rw [he]
  intro id n hn
  obtain ⟨m, hmn, hid⟩ := h hn
  refine ⟨f.swept n m, ?_, (swept_radarId n m).trans hid⟩
  show managers[n]? = _
  rw [hm, hmn, Option.map_some]

theorem Registers.sweep {n : Nat} (h : f.Registers n) : f.sweep.Registers n := by
  obtain ⟨managers, log, he, hm⟩ := f.sweep_eq
  rw [he]
  intro m' hm' hal
  obtain ⟨m, hmn, rfl⟩ := Option.map_eq_some_iff.1 ((hm n).symm.trans hm')
  have hsw := swept_of_alive hal
  rw [hsw] at hal ⊢
  exact h m hmn hal

theorem Registered.sweep (h : f.Registered) : f.sweep.Registered := by
  refine ⟨h.named.sweep, fun {n m} hm hal => ?_⟩
  exact (h.registers n).sweep m hm hal

/-! ## Loads -/

theorem Loads.apply (h : f.Loads) (hs : f.Sound) (hr : f.Named) {move : FeedMove}
    (ha : f.allows move = true) : (f.apply move).Loads := by
  have still : ∀ {n m}, f.manager? n = some m → m.alive = true →
      ∃ m', (f.apply move).manager? n = some m' ∧ m'.alive = true ∧ m'.radarId = m.radarId := by
    intro n m hm hal
    obtain ⟨m', hm', hal', hid⟩ := alive_apply hm move
    exact ⟨m', hm', hal'.trans hal, hid⟩
  refine ⟨fun t ht {l} hw => ?_, fun t ht {l r owner} hw hp => ?_⟩
  · have starter : ∃ m, f.manager? l.manager = some m ∧ m.alive = true := by
      rcases (tasks_apply f move).mem ht with ht | hd | hd
      · exact h.starter t ht hw
      · rw [hw] at hd
        obtain ⟨n, source, request, rfl, rfl⟩ := hd.starter
        simp only [allows, Bool.and_eq_true] at ha
        exact hs.held (List.contains_iff_mem.1 ha.1)
      · rw [hw] at hd
        obtain ⟨k, phase, hk, -, rfl⟩ := hd.goesOn
        obtain ⟨t, ht, -, hw⟩ := exists_task_of_load? hk
        exact h.starter (l := k) t ht hw
    obtain ⟨m, hm, hal⟩ := starter
    obtain ⟨m', hm', hal', -⟩ := still hm hal
    exact ⟨m', hm', hal'⟩
  · rcases (tasks_apply f move).mem ht with ht | hd | hd
    · obtain ⟨hfile, m, hm, hal, hid⟩ := h.owner t ht hw hp
      obtain ⟨m', hm', hal', hid'⟩ := still hm hal
      exact ⟨hfile, m', hm', hal', hid'.trans hid⟩
    · rw [hw] at hd
      obtain ⟨n, source, request, -, rfl⟩ := hd.starter
      cases hp
    · rw [hw] at hd
      obtain ⟨k, phase, hk, hadv, rfl⟩ := hd.goesOn
      have hp : phase = .initializing r owner := hp
      subst hp
      obtain ⟨bytes, file, remarks, hkp, rfl, rfl, rfl⟩ := hadv.initializing
      obtain ⟨m, hm, hal, hid⟩ := hr.radarId_manager (Ascii.upper file.radarId)
      obtain ⟨log, he⟩ := takeDecoded_eq hk hkp file remarks
      refine ⟨rfl, m, ?_, hal, hid.trans (Ascii.upper_upper _)⟩
      rw [show f.apply (.decoded t.id (.file file) remarks) = _ from he]
      exact hm

theorem Loads.sweep (h : f.Loads) : f.sweep.Loads := by
  -- a load keeps the managers that it is about
  have still : ∀ t ∈ f.tasks, ∀ {n}, t.work.keeps n = true → f.sweep.manager? n = f.manager? n :=
    fun t ht n hk => manager?_sweep_of_needed (isNeeded_of_keeps ht hk)
  refine ⟨fun t ht {l} hw => ?_, fun t ht {l r owner} hw hp => ?_⟩
  · rw [tasks_sweep] at ht
    rw [still t ht (by simp [hw, Work.keeps, Load.keeps])]
    exact h.starter t ht hw
  · rw [tasks_sweep] at ht
    rw [still t ht (by simp [hw, Work.keeps, Load.keeps, hp])]
    exact h.owner t ht hw hp

/-! ## Records -/

/-- A load that waits for grids stores its record with a manager whose grids are computed. -/
theorem filed_gridsReady (hf : ∀ {n m}, f.manager? n = some m → m.Filed) (hl : f.Loads) {id : Nat}
    {l : Load} {r : Record} {owner : Nat} (hid : f.load? id = some l)
    (hp : l.phase = .initializing r owner) {n : Nat} {m : Manager}
    (hm : (f.apply (.gridsReady id)).manager? n = some m) : m.Filed := by
  obtain ⟨t, ht, -, hw⟩ := exists_task_of_load? hid
  obtain ⟨hr, k, hk, -, hsite⟩ := hl.owner t ht hw hp
  obtain ⟨log, he⟩ := takeGrids_eq hid hp
  rw [show f.apply (.gridsReady id) = _ from he] at hm
  have hm : ((f.computeGrids owner).managers.modify owner (Manager.store · r))[n]? = some m := hm
  rw [managers_computeGrids, List.modify_modify_eq, List.getElem?_modify] at hm
  obtain ⟨m₀, hm₀, rfl⟩ := Option.map_eq_some_iff.1 hm
  have h₀ : m₀.Filed := hf hm₀
  by_cases ho : owner = n
  · subst ho
    cases Option.some.inj (hk.symm.trans hm₀)
    rw [if_pos rfl]
    have h₁ : (k.change f.retry .computeGrids).Filed := h₀.change _ fun x hx => by cases hx
    refine h₁.change (c := .store r) f.retry fun x hx => ?_
    cases hx
    exact ⟨hsite.symm, hr, rfl⟩
  · rw [if_neg ho]
    exact h₀

/-- All that the caches of managers hold stands where it belongs. -/
theorem filed_apply (hf : ∀ {n m}, f.manager? n = some m → m.Filed) (hl : f.Loads)
    {move : FeedMove} {n : Nat} {m : Manager} (hm : (f.apply move).manager? n = some m) :
    m.Filed := by
  by_cases hst : ∃ n r, f.Causes move n (.store r)
  · obtain ⟨_, _, hst⟩ := hst
    cases hst with
    | stored hid hp => exact filed_gridsReady hf hl hid hp hm
  · refine (managers_apply f move).preserves (I := fun _ m => m.Filed) ?_ ?_ ?_ n m hm
    · intro n radarId site _ _
      exact Manager.filed_new _ _ _
    · intro n m c hc hm
      refine hm.change _ fun x hx => ?_
      subst hx
      exact absurd ⟨n, x, hc⟩ hst
    · intro n m hm
      exact hf hm

/-! ## Runs -/

/-- What holds of every feed. -/
structure Orderly (f : Feed) : Prop where
  sound : f.Sound
  named : f.Named
  loads : f.Loads
  filed : ∀ {n m}, f.manager? n = some m → m.Filed

/-- What holds of a feed whose registry was never cleared. -/
structure Coherent (f : Feed) : Prop extends Orderly f where
  living : ∀ {n m}, f.manager? n = some m → m.alive = true → f.registry.get? m.radarId = some n

theorem Orderly.apply (h : f.Orderly) {move : FeedMove} (ha : f.allows move = true) :
    (f.apply move).Orderly where
  sound := h.sound.apply ha
  named := h.named.apply move
  loads := h.loads.apply h.sound h.named ha
  filed := filed_apply h.filed h.loads

theorem Orderly.sweep (h : f.Orderly) : f.sweep.Orderly where
  sound := h.sound.sweep
  named := h.named.sweep
  loads := h.loads.sweep
  filed {n m'} hm' := by
    rw [manager?_sweep] at hm'
    obtain ⟨m, hm, rfl⟩ := Option.map_eq_some_iff.1 hm'
    unfold swept
    split
    · exact (h.filed hm).change _ nofun
    · exact h.filed hm

theorem Orderly.move (h : f.Orderly) (move : FeedMove) : (f.move move).Orderly := by
  unfold Feed.move
  split
  · exact (h.apply ‹_›).sweep
  · exact h

theorem Orderly.run (h : f.Orderly) (moves : List FeedMove) : (f.run moves).Orderly :=
  run_of_move h fun _ move _ hg => hg.move move

theorem orderly_new (sites : SiteTable) (settings : Settings) : (new sites settings).Orderly where
  sound := sound_new sites settings
  named := nofun
  loads := ⟨by simp [new], by simp [new]⟩
  filed := by simp [new, manager?]

theorem Coherent.registered (h : f.Coherent) : f.Registered :=
  ⟨h.named, h.living⟩

theorem Coherent.routed (h : f.Coherent) {n : Nat} {m : Manager} (hm : f.manager? n = some m) :
    m.Routed :=
  (h.filed hm).routed

theorem Coherent.apply (h : f.Coherent) {move : FeedMove} (ha : f.allows move = true)
    (hc : move ≠ .cleanup) : (f.apply move).Coherent :=
  ⟨h.toOrderly.apply ha, (h.registered.apply hc).living⟩

theorem Coherent.sweep (h : f.Coherent) : f.sweep.Coherent :=
  ⟨h.toOrderly.sweep, h.registered.sweep.living⟩

theorem Coherent.move (h : f.Coherent) {move : FeedMove} (hc : move ≠ .cleanup) :
    (f.move move).Coherent := by
  unfold Feed.move
  split
  · exact (h.apply ‹_› hc).sweep
  · exact h

theorem Coherent.run (h : f.Coherent) {moves : List FeedMove} (hc : .cleanup ∉ moves) :
    (f.run moves).Coherent :=
  run_of_move h fun _ _ hm hg => hg.move fun he => hc (he ▸ hm)

theorem coherent_new (sites : SiteTable) (settings : Settings) :
    (new sites settings).Coherent :=
  ⟨orderly_new sites settings, by simp [new, manager?]⟩

end Feed

end RadarFeed
