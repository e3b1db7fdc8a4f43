import RadarFeed.Proofs.Feed.Sound

/-!
The machines of managers that have ended.

A manager that nobody needs has ended, and its machines are disabled. Nobody holds it any more, so
nobody enables them: what is under way comes to an end, and nothing else happens (`Rests`). Together
with what `Silent` says of a single machine that is `rests_once_disabled`.
-/

namespace RadarFeed

namespace Manager

variable {m m' m'' : Manager}

/-- To a machine, changes of its manager are some steps. -/
theorem machine?_changes {product : Option String} {r : Refresher}
    (hr : m.machine? product = some r) (retry : Duration) (cs : List ManagerMove) :
    ∃ steps, (m.changes retry cs).machine? product = some (r.run steps) := by
  induction cs generalizing m r with
  | nil => exact ⟨[], hr⟩
  | cons c cs ih =>
    obtain ⟨steps, hs⟩ := ih (machine?_change hr retry c)
    refine ⟨c.stepsOf product ++ steps, ?_⟩
    rw [Refresher.run_append]
    exact hs

/-- The machines of `m` have come to those of `m'` by steps of which none enables a machine, and
subscribers have been told what these publish. -/
structure Follows (m m' : Manager) : Prop where
  machine : ∀ {product r}, m.machine? product = some r → ∃ moves, .enable ∉ moves ∧
    m'.machine? product = some (r.run moves) ∧ m'.news product = m.news product ++ r.events moves

theorem Follows.refl (m : Manager) : m.Follows m :=
  ⟨fun hr => ⟨[], by simp, hr, (List.append_nil _).symm⟩⟩

theorem Follows.trans (h : m.Follows m') (h' : m'.Follows m'') : m.Follows m'' := by
  refine ⟨fun hr => ?_⟩
  obtain ⟨s, hs, hr', hn⟩ := h.machine hr
  obtain ⟨t, ht, hr'', hn'⟩ := h'.machine hr'
  refine ⟨s ++ t, ?_, ?_, ?_⟩
  · simp only [List.mem_append, not_or]
    exact ⟨hs, ht⟩
  · rw [hr'', Refresher.run_append]
  · rw [hn', hn, Refresher.events_append, List.append_assoc]

/-- Changes by which nobody enables a machine. -/
theorem Sound.follows (h : m.Sound) (retry : Duration) {cs : List ManagerMove}
    (hcs : ∀ c ∈ cs, ∀ p, c ≠ .step p .enable) : m.Follows (m.changes retry cs) := by
  induction cs generalizing m with
  | nil => exact .refl m
  | cons c cs ih =>
    obtain ⟨hc, hcs⟩ := List.forall_mem_cons.1 hcs
    have hstep : m.Follows (m.change retry c) := by
      refine ⟨fun {product r} hr => ⟨c.stepsOf product, fun he => ?_, ?_, ?_⟩⟩
      · obtain ⟨p, rfl⟩ := ManagerMove.eq_of_enable_mem he
        exact hc p rfl
      · exact machine?_change hr retry c
      · exact news_change h hr retry c
    have hsound : (m.change retry c).Sound := h.change retry fun p hp => absurd hp (hc p)
    exact hstep.trans (ih hsound hcs)

end Manager

namespace Feed

variable {f g : Feed} {id : MachineId}

/-- What subscribers have been told about new objects of the product of a machine. -/
def news (f : Feed) (id : MachineId) : List ProductEvent :=
  ((f.manager? id.manager).map fun m => m.news id.product).getD []

/-- A cycle of a machine has its turn. -/
def asking (f : Feed) (id : MachineId) : Bool :=
  ((f.machine? id).map Refresher.inFlight).getD false

/-- From `f` to `g` a machine stays disabled: no task of its turns to the source or is a new timer,
and at most the cycle that has its turn in `f` publishes an event. -/
structure Rests (f g : Feed) (id : MachineId) : Prop where
  disabled : (g.machine? id).map Refresher.status = some .disabled
  running : (g.machine? id).map Refresher.running = some []
  asks : ∀ t ∈ g.tasks, t.work = .cycle id true → t ∈ f.tasks
  armed : ∀ t ∈ g.tasks, ∀ token, t.work = .timer id token → t ∈ f.tasks
  news : ∃ events, g.news id = f.news id ++ events ∧
    events.length + (g.asking id).toNat ≤ (f.asking id).toNat

/-- Only managers that somebody needs live. -/
def Tended (f : Feed) : Prop :=
  ∀ n m, f.manager? n = some m → m.alive = true → f.isNeeded n = true

theorem tended_sweep (f : Feed) : f.sweep.Tended := by
  obtain ⟨managers, log, h, hm⟩ := f.sweep_eq
  rw [h]
  intro n m' hm' hal
  obtain ⟨m, -, rfl⟩ := Option.map_eq_some_iff.1 ((hm n).symm.trans hm')
  show f.isNeeded n = true
  unfold swept at hal
  split at hal
  · cases hal
  · rename_i hx
    rw [hal] at hx
    simpa using hx

theorem Tended.run (h : f.Tended) (moves : List FeedMove) : (f.run moves).Tended := by
  refine run_of_move h fun g move _ hg => ?_
  unfold Feed.move
  split
  · exact tended_sweep _
  · exact hg

theorem tended_run_new (sites : SiteTable) (settings : Settings) (moves : List FeedMove) :
    ((new sites settings).run moves).Tended :=
  Tended.run (fun n m hm => by simp [new, manager?] at hm) moves

/-- Nobody enables the machines of a manager that has ended: who does so holds it, and what is held
lives. -/
theorem Sound.ne_enable (h : f.Sound) {n : Nat} {m : Manager} (hm : f.manager? n = some m)
    (hd : m.alive = false) {move : FeedMove} (ha : f.allows move = true) {c : ManagerMove}
    (hc : f.Causes move n c) (p : Option String) : c ≠ .step p .enable := by
  rintro rfl
  obtain ⟨m', hm', hal⟩ := h.held (hc.held ha)
  rw [hm] at hm'
  rw [← Option.some.inj hm', hd] at hal
  cases hal

/-- A move and the managers that have ended. -/
theorem Sound.follows (h : f.Sound) {n : Nat} {m : Manager} (hm : f.manager? n = some m)
    (hd : m.alive = false) (move : FeedMove) :
    ∃ m', (f.move move).manager? n = some m' ∧ m'.alive = false ∧ m.Follows m' := by
  unfold Feed.move
  split
  · rename_i ha
    obtain ⟨cs, hcs, hm'⟩ := manager?_apply hm move
    have hal : (m.changes f.retry cs).alive = false :=
      (Manager.alive_changes (fun c hc => (hcs c hc).ne_close) _ m).trans hd
    refine ⟨m.changes f.retry cs, ?_, hal, (h.managers hm).follows _ fun c hc => ?_⟩
    · rw [manager?_sweep, hm', Option.map_some, swept_of_ended hal]
    · exact h.ne_enable hm hd ha (hcs c hc)
  · exact ⟨m, hm, hd, .refl m⟩

/-- No cycle of a machine of a manager that has ended turns to the source, and none of its steps
arms a timer. -/
theorem Sound.tasks_of_ended (h : f.Sound) {m : Manager} (hm : f.manager? id.manager = some m)
    (hd : m.alive = false) (move : FeedMove) {t : Task} (ht : t ∈ (f.move move).tasks) :
    (t.work = .cycle id true → t ∈ f.tasks) ∧ ∀ token, t.work = .timer id token → t ∈ f.tasks := by
  have hr : ∀ {r}, f.machine? id = some r → r.enabled = false := by
    intro r hr
    have hr : (f.manager? id.manager).bind (Manager.machine? · id.product) = some r := hr
    rw [hm, Option.bind_some] at hr
    exact (h.managers hm).ended hd hr
  unfold Feed.move at ht
  split at ht
  · rename_i ha
    rw [tasks_sweep] at ht
    rcases (tasks_apply f move).mem ht with ht | hx
    · exact ⟨fun _ => ht, fun _ _ => ht⟩
    · refine ⟨fun hw => ?_, fun token hw => ?_⟩
      · obtain ⟨r, hr', -, he⟩ := Drives.asks hx hw
        rw [hr hr'] at he; cases he
      · obtain ⟨r, step, hr', hc, htm⟩ := Drives.arms hx hw
        have hne : step ≠ .enable := by
          rintro rfl
          exact h.ne_enable hm hd ha hc id.product rfl
        have := ((r.turn step).of_disabled (hr hr') hne).2.1 token
        exact absurd (List.mem_filter.2 ⟨htm, rfl⟩) this
  · exact ⟨fun _ => ht, fun _ _ => ht⟩

theorem Sound.ended_run (h : f.Sound) {m : Manager} (hm : f.manager? id.manager = some m)
    (hd : m.alive = false) (moves : List FeedMove) :
    (∃ m', (f.run moves).manager? id.manager = some m' ∧ m.Follows m') ∧
      ∀ t ∈ (f.run moves).tasks, (t.work = .cycle id true → t ∈ f.tasks) ∧
        ∀ token, t.work = .timer id token → t ∈ f.tasks := by
  induction moves generalizing f m with
  | nil => exact ⟨⟨m, hm, .refl m⟩, fun t ht => ⟨fun _ => ht, fun _ _ => ht⟩⟩
  | cons move moves ih =>
    obtain ⟨m₁, hm₁, hd₁, hf₁⟩ := h.follows hm hd move
    obtain ⟨⟨m₂, hm₂, hf₂⟩, ht₂⟩ := ih (h.move move) hm₁ hd₁
    refine ⟨⟨m₂, hm₂, hf₁.trans hf₂⟩, fun t ht => ?_⟩
    have ht₁ := fun k => h.tasks_of_ended hm hd move (t := t) k
    obtain ⟨hc, htm⟩ := ht₂ t ht
    exact ⟨fun hw => (ht₁ (hc hw)).1 hw, fun token hw => (ht₁ (htm token hw)).2 token hw⟩

/-- The machines of a manager that has ended rest. -/
theorem Sound.rests (h : f.Sound) {m : Manager} (hm : f.manager? id.manager = some m)
    (hd : m.alive = false) {r : Refresher} (hr : f.machine? id = some r) (moves : List FeedMove) :
    f.Rests (f.run moves) id := by
  have hr' : m.machine? id.product = some r := by
    have hr : (f.manager? id.manager).bind (Manager.machine? · id.product) = some r := hr
    rwa [hm, Option.bind_some] at hr
  obtain ⟨⟨m', hm', hf⟩, ht⟩ := h.ended_run hm hd moves
  obtain ⟨s, hs, hr'', hn⟩ := hf.machine hr'
  have hsil : r.Silent s :=
    Refresher.silent_of_disabled ((h.managers hm).sound hr') ((h.managers hm).ended hd hr') hs
  have hg : (f.run moves).machine? id = some (r.run s) := by
    show ((f.run moves).manager? id.manager).bind (Manager.machine? · id.product) = _
    rw [hm', Option.bind_some, hr'']
  refine ⟨?_, ?_, fun t k => (ht t k).1, fun t k => (ht t k).2, r.events s, ?_, ?_⟩
  · rw [hg, Option.map_some, hsil.disabled]
  · rw [hg, Option.map_some, hsil.running]
  · unfold news
    rw [hm', hm]
    exact hn
  · unfold asking
    rw [hg, hr]
    exact hsil.events

/-- To a machine, a move is some steps of its own: no other takes its place. -/
theorem machine?_move {r : Refresher} (hr : f.machine? id = some r) (move : FeedMove) :
    ∃ steps, (f.move move).machine? id = some (r.run steps) := by
  unfold Feed.move
  split
  · obtain ⟨m, hm, hr⟩ := Option.bind_eq_some_iff.1 hr
    obtain ⟨cs, -, hm'⟩ := manager?_apply hm move
    obtain ⟨steps, hs⟩ := Manager.machine?_changes hr f.retry cs
    show ∃ steps, ((f.apply move).sweep.manager? _).bind _ = some (r.run steps)
    rw [manager?_sweep, hm', Option.map_some, Option.bind_some]
    unfold swept
    split
    · refine ⟨steps ++ [.disable], ?_⟩
      rw [Refresher.run_append]
      exact Manager.machine?_change hs _ .close
    · exact ⟨steps, hs⟩
  · exact ⟨[], hr⟩

theorem machine?_run {r : Refresher} (hr : f.machine? id = some r) (moves : List FeedMove) :
    ∃ steps, (f.run moves).machine? id = some (r.run steps) := by
  refine run_of_move (I := fun g => ∃ steps, g.machine? id = some (r.run steps)) ⟨[], hr⟩ ?_
  rintro g move - ⟨steps, hs⟩
  obtain ⟨more, hm⟩ := machine?_move hs move
  exact ⟨steps ++ more, by rw [hm, Refresher.run_append]⟩

/-- **Disabling is final.** From the step that disables a machine, whatever step that is, the
machine is silent until somebody enables it. And when nobody needs a manager any more, the machine
of its volumes and each one that it ever had for a product rest for good. -/
theorem rests_once_disabled :
    (∀ (radarId : String) (product : Option String) (retry : Duration)
        (before : List RefreshMove) (cause : RefreshMove) (after : List RefreshMove),
      let r := (Refresher.new radarId product retry).run before
      r.Disables cause → .enable ∉ after → (r.step cause).1.Silent after) ∧
    (∀ (sites : SiteTable) (settings : Settings) (before during after : List FeedMove)
        (id : MachineId),
      let f := (new sites settings).run before
      let g := f.run during
      (f.machine? id).isSome = true → g.isNeeded id.manager = false →
        g.Rests (g.run after) id) := by
  constructor
  · intro radarId product retry before cause after r hc hn
    exact Refresher.silent_of_disables (Refresher.sound_run_new radarId product retry before) hc hn
  · intro sites settings before during after id f g hf hg
    obtain ⟨r, hr⟩ := Option.isSome_iff_exists.1 hf
    obtain ⟨s, hs⟩ := machine?_run hr during
    obtain ⟨m, hm, -⟩ := Option.bind_eq_some_iff.1 hs
    have hd : m.alive = false := by
      by_contra hal
      have hal : m.alive = true := by simpa using hal
      have := (tended_run_new sites settings before).run during _ m hm hal
      rw [show (f.run during).isNeeded id.manager = false from hg] at this
      cases this
    exact ((sound_run_new sites settings before).run during).rests hm hd hs after

/-- The source of a machine is empty; a manager is let go. -/
theorem rests_once_empty_or_released :
    let a : CycleAnswer := ⟨.ok ⟨0, 0⟩, ⟨none, none, none, defaultUpdatePeriod⟩, ⟨1767225600, 0⟩⟩
    let r := (Refresher.new "KLSX" none (.ofSeconds 15)).run [.enable, .refresh, .cycleBegins]
    let f := (new .empty .default).run [.hold "KLSX", .toggleVolumes 0 true, .machine 0 "N0B"]
    let g := f.run [.release 0]
    (r.step (.cycleEnds a)).1.Silent [.cycleBegins, .refresh] ∧
      g.Rests (g.run [.cycleBegins 0]) ⟨0, none⟩ ∧ g.Rests (g.run []) ⟨0, some "N0B"⟩ := by
  intro a r f g
  refine ⟨?_, ?_, ?_⟩
  · exact rests_once_disabled.1 "KLSX" none (.ofSeconds 15) [.enable, .refresh, .cycleBegins]
      (.cycleEnds a) [.cycleBegins, .refresh] (.emptied (by decide) (by decide)) (by simp)
  · exact rests_once_disabled.2 .empty .default
      [.hold "KLSX", .toggleVolumes 0 true, .machine 0 "N0B"] [.release 0] [.cycleBegins 0]
      ⟨0, none⟩ (by decide) (by decide)
  · exact rests_once_disabled.2 .empty .default
      [.hold "KLSX", .toggleVolumes 0 true, .machine 0 "N0B"] [.release 0] []
      ⟨0, some "N0B"⟩ (by decide) (by decide)

end Feed

end RadarFeed
