import RadarFeed.Proofs.Feed.Ended
import RadarFeed.Proofs.Feed.FirstRecord
import RadarFeed.Proofs.Feed.Locks

/-!
Steps that nobody can tell.

An empty cache answers as none does, and a further task keeps a manager but ends none. A feed with
no more than these besides (`Quiet`) gives the same answers and has published the same events
(`Unseen`). The moves of a load keep it so until a file has been decoded (`Quiet.step`), and those
of a load that is not there keep it so all the time (`Quiet.absent_run`).
-/

namespace RadarFeed

namespace Manager

/-- Two managers give the same answers, and have published the same events. -/
structure Alike (m m' : Manager) : Prop where
  radarId : m'.radarId = m.radarId
  alive : m'.alive = m.alive
  volumes : ∀ time, m'.level2Record time = m.level2Record time
  products : ∀ product time, m'.level3Record product time = m.level3Record product time
  scans : ∀ moment elevation time, m'.scan moment elevation time = m.scan moment elevation time
  messages : ∀ product time, m'.message product time = m.message product time
  events : m'.events = m.events

theorem Alike.refl (m : Manager) : m.Alike m :=
  ⟨rfl, rfl, fun _ => rfl, fun _ _ => rfl, fun _ _ _ => rfl, fun _ _ => rfl, rfl⟩

/-- Nobody can tell an empty cache from none. -/
theorem alike_ensureCache (m : Manager) (product : String) : m.Alike (m.ensureCache product) := by
  have products : ∀ p time,
      (m.ensureCache product).level3Record p time = m.level3Record p time := by
    intro p time
    simp only [level3Record, level3Cache, ensureCache, Keyed.get?_ensure]
    cases m.level3Caches.get? (Ascii.upper p) with
    | some c => rfl
    | none =>
      split
      · cases time <;> rfl
      · rfl
  refine ⟨rfl, rfl, fun _ => rfl, products, fun _ _ _ => rfl, fun p time => ?_, rfl⟩
  simp only [message, products]

end Manager

namespace Feed

variable {f g : Feed}

/-- Nobody can tell `g` from `f`: the managers are as many and give the same answers, and what they
share is the same. -/
structure Unseen (f g : Feed) : Prop where
  count : g.managers.length = f.managers.length
  managers : ∀ {n m}, f.manager? n = some m → ∃ m', g.manager? n = some m' ∧ m.Alike m'
  files : g.files = f.files
  registry : g.registry = f.registry
  created : g.created = f.created

/-- From `f` to `g` there may be an empty cache more, and further tasks. -/
structure Quiet (f g : Feed) : Prop where
  managers : ∃ n source, g.managers = f.managersFor n source
  shared : g.shared = f.shared
  tasks : ∀ t ∈ f.tasks, t ∈ g.tasks

theorem Quiet.refl (f : Feed) : f.Quiet f :=
  ⟨⟨0, .object none none, rfl⟩, rfl, fun _ hmem => hmem⟩

theorem Quiet.congr (h : f.Quiet g) {g' : Feed} (hm : g'.managers = g.managers)
    (hs : g'.shared = g.shared) (ht : ∀ t ∈ f.tasks, t ∈ g'.tasks) : f.Quiet g' := by
  obtain ⟨n, source, he⟩ := h.managers
  exact ⟨⟨n, source, hm.trans he⟩, hs.trans h.shared, ht⟩

theorem Quiet.manager? (h : f.Quiet g) (k : Nat) :
    g.manager? k = f.manager? k ∨
      ∃ product, g.manager? k = (f.manager? k).map (Manager.ensureCache · product) := by
  obtain ⟨n, source, he⟩ := h.managers
  show g.managers[k]? = f.managers[k]? ∨ ∃ product, g.managers[k]? = f.managers[k]?.map _
  rw [he]
  unfold managersFor
  split
  · rename_i product _
    rw [List.getElem?_modify]
    by_cases hk : n = k
    · exact .inr ⟨product, by simp [hk]⟩
    · exact .inl (by simp [hk])
  · exact .inl rfl

theorem Quiet.alike (h : f.Quiet g) {k : Nat} {m : Manager} (hm : f.manager? k = some m) :
    ∃ m', g.manager? k = some m' ∧ m.Alike m' := by
  rcases h.manager? k with he | ⟨product, he⟩
  · exact ⟨m, he.trans hm, .refl m⟩
  · rw [hm] at he
    exact ⟨_, he, m.alike_ensureCache product⟩

theorem Quiet.length (h : f.Quiet g) : g.managers.length = f.managers.length := by
  obtain ⟨n, source, he⟩ := h.managers
  rw [he]
  unfold managersFor
  split
  · exact List.length_modify _ _ _
  · rfl

theorem Quiet.unseen (h : f.Quiet g) : f.Unseen g where
  count := h.length
  managers := h.alike
  files := congrArg Shared.files h.shared
  registry := congrArg Shared.registry h.shared
  created := congrArg Shared.created h.shared

theorem Quiet.cached (h : f.Quiet g) (n : Nat) (product : Option String) :
    g.cached n product = f.cached n product := by
  funext t
  unfold Feed.cached
  rcases h.manager? n with he | ⟨p, he⟩
  · rw [he]
  · rw [he]
    cases f.manager? n with
    | none => rfl
    | some m => exact m.get?_ensureCache p product t

theorem Quiet.cacheFor (h : f.Quiet g) (l : Load) (product : Option String) :
    (g.cacheFor l product).get? = f.cached l.manager product := by
  rw [← h.cached]
  funext t
  unfold Feed.cacheFor Feed.cached
  cases g.manager? l.manager <;> rfl

theorem Quiet.files (h : f.Quiet g) : g.files = f.files :=
  congrArg Shared.files h.shared

/-- Whoever somebody needs in `f` somebody needs in `g`, so nobody ends. -/
theorem Quiet.sweep (h : f.Quiet g) (ht : f.Tended) : f.Quiet g.sweep := by
  have needed : ∀ {n}, f.isNeeded n = true → g.isNeeded n = true := by
    intro n hn
    unfold isNeeded at hn
    rcases Bool.or_eq_true_iff.1 hn with hn | hn
    · have hh : g.holders = f.holders := congrArg Shared.holders h.shared
      exact isNeeded_of_held (hh ▸ List.contains_iff_mem.1 hn)
    · obtain ⟨t, ht, hk⟩ := List.any_eq_true.1 hn
      exact isNeeded_of_keeps (h.tasks t ht) hk
  -- who lives in `g` lives in `f`, and there somebody needs whoever lives
  have same : ∀ n : Nat, g.sweep.managers[n]? = g.managers[n]? := by
    intro n
    show g.sweep.manager? n = g.manager? n
    cases hm : g.manager? n with
    | none => rw [manager?_sweep, hm, Option.map_none]
    | some m' =>
      cases hal : m'.alive with
      | false => rw [manager?_sweep, hm, Option.map_some, swept_of_ended hal]
      | true =>
        have hg : g.managers[n]? = some m' := hm
        have hlt : n < f.managers.length := h.length ▸ (List.getElem?_eq_some_iff.1 hg).1
        have hf : f.manager? n = some f.managers[n] := List.getElem?_eq_getElem hlt
        obtain ⟨m₁, hm₁, hlike⟩ := h.alike hf
        cases Option.some.inj (hm.symm.trans hm₁)
        have hn : f.isNeeded n = true := ht n _ hf (hlike.alive ▸ hal)
        rw [manager?_sweep_of_needed (needed hn), hm]
  refine h.congr (List.ext_getElem? same) ?_ ?_
  · obtain ⟨_, _, he, -⟩ := g.sweep_eq
    rw [he]
    rfl
  · rw [tasks_sweep]
    exact h.tasks

/-! ## The moves of a load -/

theorem mem_setWork {t : Task} {id : Nat} (ht : t ∈ f.tasks) (hid : t.id ≠ id) (w : Work) :
    t ∈ (f.setWork id w).tasks :=
  List.mem_map.2 ⟨t, ht, if_neg hid⟩

theorem Quiet.step (h : f.Quiet g) (hs : f.Sound) (ht : f.Tended) {l : Load}
    (hl : g.load? f.nextTask = some l) {move : FeedMove} (hm : move.loadTask? = some f.nextTask)
    (hn : ∀ phase, g.Advances move f.nextTask l phase → g.Enters move f.nextTask l phase) :
    f.Quiet (g.move move) := by
  rw [move_of_loadTask? hm]
  refine Quiet.sweep ?_ ht
  have hstep := g.step move
  generalize g.apply move = g' at hstep ⊢
  cases hstep with
  | idle log _ => exact h.congr rfl rfl h.tasks
  | entered log _ he =>
    cases Option.some.inj (hm.symm.trans (Advances.enters he).loadTask?)
    refine h.congr rfl rfl fun t ht => ?_
    exact mem_setWork (f := g) (h.tasks t ht) (Nat.ne_of_lt (hs.fresh t ht)) _
  | routed log hk hp =>
    cases hm
    cases Option.some.inj (hl.symm.trans hk)
    cases hn _ (.routed hp)
  | stored log hk hp =>
    cases hm
    cases Option.some.inj (hl.symm.trans hk)
    cases hn _ (.stored hp)
  | _ => cases hm

/-- A load that no task does takes no steps. -/
theorem Quiet.absent (h : f.Quiet g) (ht : f.Tended) (hl : g.load? f.nextTask = none)
    {move : FeedMove} (hm : move.loadTask? = some f.nextTask ∨ move = .answer f.nextTask) :
    f.Quiet (g.move move) ∧ (g.move move).load? f.nextTask = none := by
  have hmove : g.move move = (g.apply move).sweep := by
    rcases hm with hm | rfl
    · exact move_of_loadTask? hm
    · rfl
  rw [hmove, load?_sweep]
  have hstep := g.step move
  generalize g.apply move = g' at hstep ⊢
  cases hstep with
  | idle log _ => exact ⟨Quiet.sweep (h.congr rfl rfl h.tasks) ht, hl⟩
  | entered log hk he =>
    rcases hm with hm | rfl
    · cases Option.some.inj (hm.symm.trans (Advances.enters he).loadTask?)
      cases hl.symm.trans hk
    · cases he
  | routed log hk | stored log hk =>
    rcases hm with hm | hm
    · cases Option.some.inj hm
      cases hl.symm.trans hk
    · cases hm
  | answered hk =>
    rcases hm with hm | hm
    · cases hm
    · cases hm
      cases hl.symm.trans hk
  | _ => rcases hm with hm | hm <;> cases hm

theorem Quiet.absent_run (h : f.Quiet g) (ht : f.Tended) (hl : g.load? f.nextTask = none)
    {moves : List FeedMove}
    (hm : ∀ move ∈ moves, move.loadTask? = some f.nextTask ∨ move = .answer f.nextTask) :
    f.Quiet (g.run moves) := by
  induction moves generalizing g with
  | nil => exact h
  | cons move moves ih =>
    obtain ⟨hfirst, hm⟩ := List.forall_mem_cons.1 hm
    obtain ⟨h', hl'⟩ := h.absent ht hl hfirst
    exact ih h' hl' hm

end Feed

end RadarFeed
