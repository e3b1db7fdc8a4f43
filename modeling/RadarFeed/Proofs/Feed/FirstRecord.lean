import RadarFeed.Proofs.Feed.Registry

/-!
The first record of an observation.

What a cache holds, it holds for good (`cached_run`). When a load gets a record, from a cache or
with what has been decoded, then that record is the one that the manager of its site holds where it
belongs (`Coherent.of_obtains`), and it is what the load answers with (`settled`). So whoever stores
the record of an observation first stores it for all loads: `first_record_stays`.
-/

namespace RadarFeed

namespace Feed

variable {f : Feed}

/-- The record in a cache of a manager. -/
def cached (f : Feed) (n : Nat) (product : Option String) (t : Instant) : Option Record :=
  (f.manager? n).bind fun m => (m.cacheOf product).get? t

/-- A load has its result, with which it answers next. -/
def Answering (f : Feed) (task : Nat) (result : Option Record) : Prop :=
  ∃ l, f.load? task = some l ∧ l.phase = .answering result

/-- In the course of moves a load answers with a result, or has yet to. -/
def Settled (f : Feed) (moves : List FeedMove) (task : Nat) (result : Option Record) : Prop :=
  (f.run moves).Answering task result ∨
    ∃ before after, moves = before ++ .answer task :: after ∧ (f.run before).Answering task result

/-- By a move a load gets a record of the manager `owner`: it finds one in a cache of the manager
that started it, or one that it has decoded is stored with the manager of its site. -/
def Obtains (f : Feed) (move : FeedMove) (task owner : Nat) (r : Record) : Prop :=
  (f.apply move).Answering task (some r) ∧ ∃ l, f.load? task = some l ∧
    ((l.phase = .waiting ∧ (∃ product time, l.source = .object product time) ∧
        owner = l.manager) ∨
      ∃ x, l.phase = .initializing x owner)

/-! ## Caches -/

section
variable {n : Nat} {product : Option String} {t : Instant} {r : Record}

theorem cached_eq_some_iff :
    f.cached n product t = some r ↔
      ∃ m, f.manager? n = some m ∧ (m.cacheOf product).get? t = some r :=
  Option.bind_eq_some_iff

theorem cached_congr {p q : Option String} (h : p.map Ascii.upper = q.map Ascii.upper) :
    f.cached n p t = f.cached n q t := by
  simp only [cached, Manager.cacheOf_congr h]

theorem cached_apply (h : f.cached n product t = some r) (move : FeedMove) :
    (f.apply move).cached n product t = some r := by
  obtain ⟨m, hm, hr⟩ := cached_eq_some_iff.1 h
  obtain ⟨cs, -, hm'⟩ := manager?_apply hm move
  refine cached_eq_some_iff.2 ⟨_, hm', ?_⟩
  clear hm hm'
  induction cs generalizing m with
  | nil => exact hr
  | cons c cs ih => exact ih _ (Manager.get?_change_of_some hr f.retry c)

theorem cached_sweep (h : f.cached n product t = some r) : f.sweep.cached n product t = some r := by
  obtain ⟨m, hm, hr⟩ := cached_eq_some_iff.1 h
  refine cached_eq_some_iff.2 ⟨f.swept n m, by rw [manager?_sweep, hm, Option.map_some], ?_⟩
  unfold swept
  split
  · exact Manager.get?_change_of_some hr f.retry .close
  · exact hr

theorem cached_move (h : f.cached n product t = some r) (move : FeedMove) :
    (f.move move).cached n product t = some r := by
  unfold Feed.move
  split
  · exact cached_sweep (cached_apply h move)
  · exact h

/-- A record that is held stays. -/
theorem cached_run (h : f.cached n product t = some r) (moves : List FeedMove) :
    (f.run moves).cached n product t = some r :=
  run_of_move (I := fun g => g.cached n product t = some r) h fun _ move _ hg =>
    cached_move hg move

end

/-! ## Answers -/

section
variable {task : Nat} {result : Option Record}

/-- A load that has a result does nothing but answer. -/
theorem Answering.apply (h : f.Answering task result) (hs : f.Sound) {move : FeedMove}
    (hm : move ≠ .answer task) : (f.apply move).Answering task result := by
  obtain ⟨l, hl, hp⟩ := h
  rcases load?_apply hs.fresh hl move with h | ⟨phase, ha, -⟩ | ⟨h, -⟩
  · exact ⟨l, h, hp⟩
  · exact absurd hp (ha.unanswered result)
  · exact absurd h hm

theorem Answering.move (h : f.Answering task result) (hs : f.Sound) {move : FeedMove}
    (hm : move ≠ .answer task) : (f.move move).Answering task result := by
  unfold Feed.move
  split
  · obtain ⟨l, hl, hp⟩ := h.apply hs hm
    exact ⟨l, (load?_sweep _ _).trans hl, hp⟩
  · exact h

theorem settled (h : f.Answering task result) (hs : f.Sound) (moves : List FeedMove) :
    f.Settled moves task result := by
  induction moves generalizing f with
  | nil => exact .inl h
  | cons move moves ih =>
    by_cases hm : move = .answer task
    · exact .inr ⟨[], moves, by rw [hm, List.nil_append], h⟩
    · rcases ih (h.move hs hm) (hs.move move) with h | ⟨before, after, he, h⟩
      · exact .inl h
      · exact .inr ⟨move :: before, after, by rw [he, List.cons_append], h⟩

end

/-! ## Records -/

section
variable {move : FeedMove} {task owner : Nat} {r : Record}

theorem Obtains.cases (h : f.Obtains move task owner r) (hs : f.Sound) :
    (∃ answer l product t, move = .beginLoad task answer ∧ f.load? task = some l ∧
        l.phase = .waiting ∧ owner = l.manager ∧ (f.cacheFor l product).get? t = some r) ∨
      ∃ l x, move = .gridsReady task ∧ f.load? task = some l ∧
        l.phase = .initializing x owner ∧ r = f.stored owner x := by
  obtain ⟨⟨k, hk, hkp⟩, l, hl, hp⟩ := h
  have hne : ∀ result, l.phase ≠ .answering result := by
    intro result
    rcases hp with ⟨hp, -⟩ | ⟨x, hp⟩ <;> rw [hp] <;> nofun
  rcases load?_apply hs.fresh hl move with h | ⟨phase, ha, hk'⟩ | ⟨-, ⟨result, h⟩, -⟩
  · rw [hk] at h
    exact absurd hkp (Option.some.inj h ▸ hne _)
  · rw [hk] at hk'
    cases Option.some.inj hk'
    have hph : phase = .answering (some r) := hkp
    subst hph
    cases ha with
    | enters he =>
      obtain ⟨hw, ⟨answer, rfl⟩, hf⟩ := he.found
      rcases hp with ⟨-, ⟨product, time, hs⟩, ho⟩ | ⟨x, hp⟩
      · rcases hf with ⟨path, hf⟩ | ⟨product, t, hr⟩
        · rw [hs] at hf; cases hf
        · exact .inl ⟨answer, l, product, t, rfl, hl, hw, ho, hr⟩
      · rw [hw] at hp; cases hp
    | @stored _ _ x owner' hp' =>
      rcases hp with ⟨hp, -⟩ | ⟨x', hp⟩
      · rw [hp'] at hp; cases hp
      · rw [hp'] at hp
        cases hp
        exact .inr ⟨l, x, rfl, hl, hp', rfl⟩
  · exact absurd h (hne result)

theorem Obtains.possible (h : f.Obtains move task owner r) (hs : f.Sound) :
    f.allows move = true ∧ move ≠ .cleanup := by
  rcases h.cases hs with ⟨answer, _, _, _, rfl, -⟩ | ⟨_, _, rfl, -⟩
  · exact ⟨rfl, nofun⟩
  · exact ⟨rfl, nofun⟩

/-- Where a record belongs, the manager of its site has it. -/
theorem Coherent.place (h : f.Coherent) {n : Nat} {m : Manager} {product : Option String}
    {t : Instant} (hm : f.manager? n = some m) (hal : m.alive = true)
    (hr : f.cached n product t = some r) :
    f.living? r.radarId = some n ∧ f.cached n (Manager.cacheKey r) r.time = some r := by
  obtain ⟨m', hm', hr⟩ := cached_eq_some_iff.1 hr
  rw [hm] at hm'
  cases Option.some.inj hm'
  have hrouted := h.routed hm
  refine ⟨?_, cached_eq_some_iff.2 ⟨m, hm, hrouted.get?_keyOf hr⟩⟩
  rw [hrouted.radarId hr]
  exact h.registered.living?_eq hm hal

theorem cached_gridsReady {l : Load} {x : Record} (hl : f.load? task = some l)
    (hp : l.phase = .initializing x owner) (hx : x.time.truncate = x.time) {m : Manager}
    (hm : f.manager? owner = some m) :
    (f.apply (.gridsReady task)).cached owner (Manager.cacheKey x) x.time =
      some (f.stored owner x) := by
  obtain ⟨log, he⟩ := takeGrids_eq hl hp
  have hm₁ : (f.computeGrids owner).manager? owner = some (m.change f.retry .computeGrids) := by
    rw [manager?, managers_computeGrids, List.getElem?_modify,
      show f.managers[owner]? = some m from hm]
    exact congrArg some (if_pos rfl)
  have hst : f.stored owner x = (m.change f.retry .computeGrids).stored x := by
    rw [← f.stored_computeGrids owner, stored, hm₁]
    rfl
  rw [show f.apply (.gridsReady task) = _ from he, hst]
  refine cached_eq_some_iff.2
    ⟨(m.change f.retry .computeGrids).store x, ?_, Manager.get?_store _ hx⟩
  show ((f.computeGrids owner).managers.modify owner _)[owner]? = _
  rw [List.getElem?_modify, show (f.computeGrids owner).managers[owner]? = _ from hm₁]
  exact congrArg some (if_pos rfl)

/-- A record that a load obtains is where it belongs. -/
theorem Coherent.of_obtains (h : f.Coherent) (ho : f.Obtains move task owner r) :
    (f.apply move).living? r.radarId = some owner ∧
      (f.apply move).cached owner (Manager.cacheKey r) r.time = some r := by
  obtain ⟨ha, hc⟩ := ho.possible h.sound
  have hg := h.apply ha hc
  rcases ho.cases h.sound with
    ⟨answer, l, product, t, rfl, hl, -, rfl, hr⟩ | ⟨l, x, rfl, hl, hp, rfl⟩
  · obtain ⟨task', ht, -, hw⟩ := exists_task_of_load? hl
    obtain ⟨m, hm, hal⟩ := h.loads.starter task' ht hw
    obtain ⟨m', hm', hal', -⟩ := alive_apply hm (.beginLoad task answer)
    rw [cacheFor, hm] at hr
    exact hg.place hm' (hal'.trans hal) (cached_apply (cached_eq_some_iff.2 ⟨m, hm, hr⟩) _)
  · obtain ⟨t, ht, -, hw⟩ := exists_task_of_load? hl
    obtain ⟨hx, m, hm, hal, -⟩ := h.loads.owner t ht hw hp
    have hx := Record.truncate_time hx
    obtain ⟨m', hm', hal', -⟩ := alive_apply hm (.gridsReady task)
    exact hg.place hm' (hal'.trans hal) (cached_gridsReady hl hp hx hm)

/-- What a load obtains with a record of its own is what was there before it, if there was any. -/
theorem Coherent.first (h : f.Coherent) (ho : f.Obtains move task owner r) {l : Load} {x : Record}
    (hl : f.load? task = some l) (hp : l.phase = .initializing x owner) :
    r = (f.cached owner (Manager.cacheKey x) x.time).getD x := by
  obtain ⟨t, ht, -, hw⟩ := exists_task_of_load? hl
  obtain ⟨hx, m, hm, -, -⟩ := h.loads.owner t ht hw hp
  have hx := Record.truncate_time hx
  have hr : r = f.stored owner x := by
    rcases ho.cases h.sound with ⟨-, k, -, -, -, hk, hw, -, -⟩ | ⟨k, y, -, hk, hy, hr⟩
    all_goals
      rw [hl] at hk
      cases Option.some.inj hk
    · rw [hp] at hw; cases hw
    · rw [hp] at hy; cases hy; exact hr
  rw [hr, stored, cached, hm]
  show ((m.cacheOf _).records.get? x.time).getD x = ((m.cacheOf _).records.get? _).getD x
  rw [hx]

end

/-- **The first record of an observation stays.** What a cache holds it holds for good. A load that
obtains a record obtains the one that the manager of the record's site holds where it belongs, which
is the one that was there first; it answers with it; and what any load obtains later of that manager
with the same group, product and time is the same record. -/
theorem first_record_stays (sites : SiteTable) (settings : Settings) {before : List FeedMove}
    (hb : .cleanup ∉ before) :
    let f := (new sites settings).run before
    (∀ n product t r moves, f.cached n product t = some r →
      (f.run moves).cached n product t = some r) ∧
    ∀ move task owner r, f.Obtains move task owner r →
      (f.apply move).living? r.radarId = some owner ∧
      (f.apply move).cached owner (Manager.cacheKey r) r.time = some r ∧
      (∀ l x, f.load? task = some l → l.phase = .initializing x owner →
        r = (f.cached owner (Manager.cacheKey x) x.time).getD x) ∧
      ∀ moves, .cleanup ∉ moves →
        (f.move move).Settled moves task (some r) ∧
        ∀ move' task' r', ((f.move move).run moves).Obtains move' task' owner r' →
          Manager.keyOf r' = Manager.keyOf r → r'.time = r.time → r' = r := by
  intro f
  have hf : f.Coherent := (coherent_new sites settings).run hb
  refine ⟨fun n product t r moves h => cached_run h moves, fun move task owner r ho => ?_⟩
  obtain ⟨ha, hm⟩ := ho.possible hf.sound
  obtain ⟨hlive, hr⟩ := hf.of_obtains ho
  have hmove : f.move move = (f.apply move).sweep := if_pos ha
  refine ⟨hlive, hr, fun l x hl hp => hf.first ho hl hp, fun moves hc => ⟨?_, ?_⟩⟩
  · obtain ⟨l, hl, hp⟩ := ho.1
    refine settled ⟨l, ?_, hp⟩ (hf.sound.move move) moves
    rw [hmove, load?_sweep, hl]
  · intro move' task' r' ho' hk ht
    obtain ⟨-, hr'⟩ := ((hf.move hm).run hc).of_obtains ho'
    have hr : (f.move move).cached owner (Manager.cacheKey r) r.time = some r := by
      rw [hmove]
      exact cached_sweep hr
    have hr := cached_apply (cached_run hr moves) move'
    rw [ht, cached_congr hk] at hr'
    exact Option.some.inj (hr'.symm.trans hr)

/-- A file of a product, under its code in some letters. -/
def productFile (code : String) : RadarFile :=
  .level3 ⟨"KLSX", code, "", ⟨1767225600, 0⟩, default⟩

/-- Moves by which one product is decoded twice at the same time, once through another site. -/
def decodingTwice : List FeedMove :=
  [.hold "KTLX", .hold "KLSX", .machine 1 "N0B", .load 0 (.stream (.ok [])) none,
    .load 1 (.object (some "N0B") none) none, .beginLoad 0 ⟨none, none⟩,
    .beginLoad 1 ⟨some "KLSX_N0B", none⟩, .object 1 (.ok []),
    .decoded 0 (.file (productFile "n0b")) [], .decoded 1 (.file (productFile "N0B")) []]

/-- Both loads obtain the record that is stored first. -/
theorem first_record_stays_across_sites :
    let f := (new .empty .default).run decodingTwice
    let g := f.move (.gridsReady 0)
    let r := Record.ofFile 0 (productFile "n0b")
    f.Obtains (.gridsReady 0) 0 1 r ∧ g.Obtains (.gridsReady 1) 1 1 r ∧
      (f.apply (.gridsReady 0)).living? "KLSX" = some 1 ∧
      (g.run [.gridsReady 1, .release 1]).cached 1 (some "n0b") r.time = some r ∧
      g.Settled [.gridsReady 1, .answer 0] 0 (some r) ∧
      ∀ r', g.Obtains (.gridsReady 1) 1 1 r' → Manager.keyOf r' = some "N0B" → r'.time = r.time →
        r' = r := by
  intro f g r
  have ho : f.Obtains (.gridsReady 0) 0 1 r :=
    ⟨⟨⟨0, .stream (.ok []), none, .answering (some r)⟩, rfl, rfl⟩,
      ⟨0, .stream (.ok []), none, .initializing r 1⟩, rfl, .inr ⟨r, rfl⟩⟩
  have ho' : g.Obtains (.gridsReady 1) 1 1 r :=
    ⟨⟨⟨1, .object (some "N0B") none, none, .answering (some r)⟩, rfl, rfl⟩,
      ⟨1, .object (some "N0B") none, none, .initializing (.ofFile 1 (productFile "N0B")) 1⟩, rfl,
      .inr ⟨_, rfl⟩⟩
  have hb : .cleanup ∉ decodingTwice := by simp [decodingTwice]
  have hg : (new .empty .default).run (decodingTwice ++ [.gridsReady 0]) = g :=
    List.foldl_append
  obtain ⟨hlive, -, -, hlater⟩ := (first_record_stays .empty .default hb).2 _ _ _ _ ho
  refine ⟨ho, ho', hlive, ?_, (hlater [.gridsReady 1, .answer 0] (by simp)).1, ?_⟩
  · have hb : .cleanup ∉ decodingTwice ++ [.gridsReady 0] := by simp [decodingTwice]
    have hstays := (first_record_stays .empty .default hb).1
    rw [hg] at hstays
    exact hstays 1 (some "n0b") r.time r _ rfl
  · intro r' hr' hk ht
    exact (hlater [] (by simp)).2 _ _ _ hr' hk ht

end Feed

end RadarFeed
