import RadarFeed.Proofs.Feed.Step
import RadarFeed.Proofs.Manager.Change

/-!
What a move does to the managers of a feed.

`Causes` lists the changes that a move makes of managers, `Creates` the sites whose managers it
creates. The managers after a move are those before it, changed in this way, and new ones
(`managers_apply`); then the managers that nobody needs are closed (`manager?_sweep`). What holds of
new managers and is kept by the changes that moves cause holds of all managers:
`Evolves.preserves`.
-/

namespace RadarFeed

namespace Feed

/-- The interval at which machines ask a source again that has no news. -/
def retry (f : Feed) : Duration :=
  .ofSeconds f.settings.retryIntervalSecs

/-- The changes that a move makes of a manager. -/
inductive Causes (f : Feed) : FeedMove → Nat → ManagerMove → Prop where
  | cache {n product time request} :
      Causes f (.load n (.object (some product) time) request) n (.ensureCache product)
  | grids {n} : Causes f (.grids n) n .computeGrids
  | volumes {n on} : Causes f (.toggleVolumes n on) n (.step none (switch on))
  | machine {n product} : Causes f (.machine n product) n (.ensureMachine product)
  | product {n product on offered} :
      offered.any (fun p => Ascii.sameLetters p product) = true →
      Causes f (.toggleProduct n product on (.ok offered)) n
        (.step (some (Ascii.upper product)) (switch on))
  | updated {n} : Causes f (.updateProducts n) n .requestProducts
  | asked {id n} : f.work? id = some (.products n false) →
      Causes f (.productsAsked id) n (.ensureMachine f.settings.defaultLevel3Product)
  | listed {id n answer available} : f.work? id = some (.products n true) →
      Causes f (.productsListed id answer available) n (.listProducts available)
  /-- The grids that a load waits for. -/
  | ready {id l r owner} : f.load? id = some l → l.phase = .initializing r owner →
      Causes f (.gridsReady id) owner .computeGrids
  | stored {id l r owner} : f.load? id = some l → l.phase = .initializing r owner →
      Causes f (.gridsReady id) owner (.store r)
  | begins {id machine} : f.work? id = some (.cycle machine false) →
      Causes f (.cycleBegins id) machine.manager (.step machine.product .cycleBegins)
  | ends {id machine answer} : f.work? id = some (.cycle machine true) →
      Causes f (.cycleEnds id answer) machine.manager (.step machine.product (.cycleEnds answer))
  | timer {id machine token how} : f.work? id = some (.timer machine token) →
      Causes f (.timerEnds id how) machine.manager (.step machine.product (.timerEnds token how))

/-- The sites, in capitals, whose managers a move creates. -/
inductive Creates (f : Feed) : FeedMove → String → Prop where
  | held {radarId} : f.living? (Ascii.upper radarId) = none →
      Creates f (.hold radarId) (Ascii.upper radarId)
  | routed {id l bytes file remarks} : f.load? id = some l → l.phase = .decoding bytes →
      f.living? (Ascii.upper file.radarId) = none →
      Creates f (.decoded id (.file file) remarks) (Ascii.upper file.radarId)

/-- The managers `t` come from the managers `s` by changes in `P` and by the creation of managers of
sites in `Q`. -/
inductive Evolves (settings : Settings) (P : Nat → ManagerMove → Prop) (Q : String → Prop)
    (s : List Manager) : List Manager → Prop where
  | refl : Evolves settings P Q s s
  | change {t n c} : Evolves settings P Q s t → P n c →
      Evolves settings P Q s
        (t.modify n (Manager.change (.ofSeconds settings.retryIntervalSecs) · c))
  | create {t radarId} (site : Site) : Evolves settings P Q s t → Q radarId →
      Evolves settings P Q s (t ++ [.new settings radarId site])

section
variable {settings : Settings} {P : Nat → ManagerMove → Prop} {Q : String → Prop}
  {s t : List Manager}

/-- What new managers have and changes in `P` keep, all managers have. -/
theorem Evolves.preserves (h : Evolves settings P Q s t) {I : Nat → Manager → Prop}
    (hnew : ∀ n radarId site, s.length ≤ n → Q radarId → I n (.new settings radarId site))
    (hchange : ∀ n m c, P n c → I n m → I n (m.change (.ofSeconds settings.retryIntervalSecs) c))
    (hs : ∀ n m, s[n]? = some m → I n m) : ∀ n m, t[n]? = some m → I n m := by
  have hlen : s.length ≤ t.length ∧ ∀ n m, t[n]? = some m → I n m := by
    induction h with
    | refl => exact ⟨Nat.le_refl _, hs⟩
    | @change t k c _ hc ih =>
      refine ⟨by simpa using ih.1, fun n m hm => ?_⟩
      rw [List.getElem?_modify] at hm
      obtain ⟨m', hm', rfl⟩ := Option.map_eq_some_iff.1 hm
      by_cases hk : k = n
      · subst hk
        rw [if_pos rfl]
        exact hchange k m' c hc (ih.2 k m' hm')
      · rw [if_neg hk]
        exact ih.2 n m' hm'
    | @create t radarId site _ hq ih =>
      refine ⟨by simpa using Nat.le_succ_of_le ih.1, fun n m hm => ?_⟩
      rcases Nat.lt_or_ge n t.length with hn | hn
      · rw [List.getElem?_append_left hn] at hm
        exact ih.2 n m hm
      · rw [List.getElem?_append_right hn, List.getElem?_singleton] at hm
        split at hm
        · rw [← Option.some.inj hm]
          exact hnew n radarId site (Nat.le_trans ih.1 hn) hq
        · cases hm
  exact hlen.2

/-- Where none is created there are as many managers. -/
theorem Evolves.length (h : Evolves settings P Q s t) (hq : ∀ radarId, ¬ Q radarId) :
    t.length = s.length := by
  induction h with
  | refl => rfl
  | change _ _ ih => rw [List.length_modify, ih]
  | create _ _ hc => exact absurd hc (hq _)

/-- A manager stays, and is what the changes have made of it. -/
theorem Evolves.changes (h : Evolves settings P Q s t) {n : Nat} {m : Manager}
    (hm : s[n]? = some m) :
    ∃ cs, (∀ c ∈ cs, P n c) ∧
      t[n]? = some (m.changes (.ofSeconds settings.retryIntervalSecs) cs) := by
  induction h with
  | refl => exact ⟨[], by simp, hm⟩
  | @change t k c _ hc ih =>
    obtain ⟨cs, hcs, ht⟩ := ih
    by_cases hk : k = n
    · subst hk
      refine ⟨cs ++ [c], fun d hd => ?_, ?_⟩
      · rcases List.mem_append.1 hd with hd | hd
        · exact hcs d hd
        · rw [List.mem_singleton.1 hd]; exact hc
      · rw [List.getElem?_modify, ht]
        simp [Manager.changes]
    · refine ⟨cs, hcs, ?_⟩
      rw [List.getElem?_modify, ht]
      simp [hk]
  | create _ _ _ ih =>
    obtain ⟨cs, hcs, ht⟩ := ih
    refine ⟨cs, hcs, ?_⟩
    rw [List.getElem?_append_left (List.getElem?_eq_some_iff.1 ht).1, ht]

end

/-! ## Operations -/

theorem modify_congr {s : List Manager} {n : Nat} {f g : Manager → Manager}
    (h : ∀ m, s[n]? = some m → f m = g m) : s.modify n f = s.modify n g := by
  refine List.ext_getElem? fun k => ?_
  rw [List.getElem?_modify, List.getElem?_modify]
  by_cases hk : n = k
  · subst hk
    cases hm : s[n]? with
    | none => rfl
    | some m => simp [h m hm]
  · simp [hk]

theorem modify_eq_self {s : List Manager} {n : Nat} {f : Manager → Manager}
    (h : ∀ m, s[n]? = some m → f m = m) : s.modify n f = s :=
  (modify_congr h).trans (List.modify_id n s)

theorem managers_perform (f : Feed) (id : MachineId) (e : RefreshEffect) :
    (f.perform id e).managers = f.managers.modify id.manager (Manager.tell · [e]) := by
  cases e with
  | event e => rfl
  | log | cycle | timer =>
    show f.managers = _
    exact (modify_eq_self fun m _ => m.tell_nil).symm

theorem managers_foldl_perform (f : Feed) (id : MachineId) (es : List RefreshEffect) :
    (es.foldl (fun f e => f.perform id e) f).managers =
      f.managers.modify id.manager (Manager.tell · es) := by
  induction es generalizing f with
  | nil => exact (modify_eq_self fun m _ => m.tell_nil).symm
  | cons e es ih =>
    rw [List.foldl_cons, ih, managers_perform, List.modify_modify_eq]
    exact modify_congr fun m _ => m.tell_append [e] es

/-- A step of a machine is a change of its manager. -/
theorem managers_stepMachine (f : Feed) (id : MachineId) (move : RefreshMove) :
    (f.stepMachine id move).managers =
      f.managers.modify id.manager (Manager.change f.retry · (.step id.product move)) := by
  have hid : f.machine? id = (f.managers[id.manager]?).bind (Manager.machine? · id.product) := rfl
  unfold stepMachine
  split
  · rename_i hn
    refine (modify_eq_self fun m hm => ?_).symm
    rw [hid, hm, Option.bind_some] at hn
    simp only [Manager.change, hn]
  · rename_i r hr
    dsimp only
    rw [managers_foldl_perform]
    show (f.managers.modify id.manager _).modify id.manager _ = _
    rw [List.modify_modify_eq]
    refine modify_congr fun m hm => ?_
    rw [hid, hm, Option.bind_some] at hr
    simp only [Manager.change, hr, Function.comp]

theorem managers_computeGrids (f : Feed) (n : Nat) :
    (f.computeGrids n).managers =
      f.managers.modify n (Manager.change f.retry · .computeGrids) := by
  unfold computeGrids
  split
  · rename_i hn
    refine (modify_eq_self fun m hm => ?_).symm
    rw [manager?, hm] at hn; cases hn
  · rename_i m hm
    split
    · rename_i hi
      refine (modify_eq_self fun m' hm' => ?_).symm
      rw [manager?, hm'] at hm
      rw [← Option.some.inj hm] at hi
      simp only [Manager.change, ← hi]
    · rfl

theorem managers_ensureMachine (f : Feed) (n : Nat) (product : String) :
    (f.ensureMachine n product).managers =
      f.managers.modify n (Manager.change f.retry · (.ensureMachine product)) := by
  unfold ensureMachine
  split
  · rename_i r hr
    refine (modify_eq_self fun m hm => ?_).symm
    have hid : f.machine? ⟨n, some product⟩ = (f.managers[n]?).bind (Manager.machine? · product) :=
      rfl
    rw [hid, hm, Option.bind_some] at hr
    have : (m.level3.get? (Ascii.upper product)).isSome = true := by
      rw [show m.level3.get? (Ascii.upper product) = some r from hr]; rfl
    simp only [Manager.change, Manager.ensureMachine, Keyed.ensure, if_pos this]
  · rfl

theorem managers_takeProducts (f : Feed) (n : Nat) (available : List String) :
    (f.takeProducts n available).managers =
      f.managers.modify n (Manager.change f.retry · (.listProducts available)) := by
  show (f.managers.modify n _).modify n _ = _
  rw [List.modify_modify_eq]
  rfl

/-! ## Moves -/

/-- The managers after a single change. -/
theorem Evolves.one {f : Feed} {P : Nat → ManagerMove → Prop} {Q : String → Prop} {n : Nat}
    (c : ManagerMove) (h : P n c) :
    Evolves f.settings P Q f.managers (f.managers.modify n (Manager.change f.retry · c)) :=
  .change .refl h

theorem evolves_manager {f : Feed} {P : Nat → ManagerMove → Prop} {Q : String → Prop}
    (radarId : String)
    (hq : f.living? (Ascii.upper radarId) = none → Q (Ascii.upper radarId)) :
    Evolves f.settings P Q f.managers (f.manager radarId).1.managers := by
  unfold manager
  dsimp only
  split
  · exact .refl
  · obtain ⟨log, h⟩ := f.create_eq (Ascii.upper radarId)
    rw [h]
    exact .create _ .refl (hq ‹_›)

theorem evolves_stepMachine {f g : Feed} {P : Nat → ManagerMove → Prop} {Q : String → Prop}
    {id : MachineId} {move : RefreshMove} (hm : g.managers = f.managers)
    (hs : g.settings = f.settings) (h : P id.manager (.step id.product move)) :
    Evolves f.settings P Q f.managers (g.stepMachine id move).managers := by
  rw [managers_stepMachine, hm, retry, hs]
  exact .one _ h

/-- **The managers after a move.** They are those before it, changed as the move causes, and those
that it creates. -/
theorem managers_apply (f : Feed) (move : FeedMove) :
    Evolves f.settings (f.Causes move) (f.Creates move) f.managers (f.apply move).managers := by
  have h := f.step move
  generalize f.apply move = g at h
  cases h with
  | idle | released | cleared | requested | entered | gone => exact .refl
  | @held radarId => exact evolves_manager radarId .held
  | @started n source request log =>
    cases source with
    | object product time =>
      cases product with
      | none => exact .refl
      | some product => exact .one (.ensureCache product) .cache
    | _ => exact .refl
  | @found n path request r log _ =>
    obtain ⟨_, _, h⟩ := complete_eq { f with log := log } request (some r)
    rw [h]
    exact .refl
  | @dropped n product time request log _ =>
    obtain ⟨_, h⟩ := dropRequest_eq { f with log := log } request
    rw [h]
    exact .refl
  | grids =>
    rw [managers_computeGrids]
    exact .one _ .grids
  | volumes => exact evolves_stepMachine rfl rfl .volumes
  | machine =>
    rw [managers_ensureMachine]
    exact .one _ .machine
  | product ho => exact evolves_stepMachine rfl rfl (.product ho)
  | updated => exact .one .requestProducts .updated
  | @routed id l bytes file remarks log hl hp =>
    refine evolves_manager (Ascii.upper file.radarId) fun hn => ?_
    rw [Ascii.upper_upper] at hn ⊢
    exact .routed hl hp hn
  | @stored id l r owner log hl hp =>
    show Evolves _ _ _ _ ((f.computeGrids owner).managers.modify owner _)
    rw [managers_computeGrids]
    exact .change (c := .store r) (.one _ (.ready hl hp)) (.stored hl hp)
  | @answered id l result _ _ =>
    obtain ⟨_, _, h⟩ := f.complete_eq l.request result
    rw [h]
    exact .refl
  | begun hw => exact evolves_stepMachine (g := f) rfl rfl (.begins hw)
  | refused hw => exact evolves_stepMachine (g := f) rfl rfl (.begins hw)
  | ended hw => exact evolves_stepMachine rfl rfl (.ends hw)
  | timed hw => exact evolves_stepMachine rfl rfl (.timer hw)
  | @asked id n hw =>
    show Evolves _ _ _ _ (f.ensureMachine n _).managers
    rw [managers_ensureMachine]
    exact .one _ (.asked hw)
  | @listed id n answer available log hw =>
    show Evolves _ _ _ _ (({ f with log := log } : Feed).takeProducts n available).managers
    rw [managers_takeProducts]
    exact .one (f := f) (.listProducts available) (.listed hw)

/-! ## The end of managers -/

/-- A manager after those that nobody needs have ended. -/
def swept (f : Feed) (n : Nat) (m : Manager) : Manager :=
  if m.alive && !f.isNeeded n then m.change f.retry .close else m

theorem swept_swept (f : Feed) (n : Nat) (m : Manager) : f.swept n (f.swept n m) = f.swept n m := by
  by_cases h : (m.alive && !f.isNeeded n) = true
  · rw [swept.eq_def f n m, if_pos h, swept, if_neg (by simp [Manager.change])]
  · rw [swept.eq_def f n m, if_neg h, swept, if_neg h]

theorem endManager_eq (f : Feed) (n : Nat) :
    ∃ log, f.endManager n = { f with
      managers := f.managers.modify n (Manager.change f.retry · .close), log := log } :=
  ⟨_, rfl⟩

theorem sweep_one (f : Feed) (n : Nat) : ∃ log,
    (match f.manager? n with
      | some m => if m.alive && !f.isNeeded n then f.endManager n else f
      | none => f) =
    { f with managers := f.managers.modify n (f.swept n), log := log } := by
  cases hm : f.manager? n with
  | none =>
    refine ⟨f.log, ?_⟩
    rw [modify_eq_self fun m h => by rw [manager?, h] at hm; cases hm]
  | some m =>
    have hs : ∀ m', f.managers[n]? = some m' → m' = m := by
      intro m' hm'
      rw [manager?, hm'] at hm
      exact Option.some.inj hm
    dsimp only
    by_cases h : (m.alive && !f.isNeeded n) = true
    · obtain ⟨log, he⟩ := f.endManager_eq n
      refine ⟨log, ?_⟩
      rw [if_pos h, he, modify_congr (g := f.swept n)]
      intro m' hm'
      rw [swept, if_pos (hs m' hm' ▸ h)]
    · refine ⟨f.log, ?_⟩
      rw [if_neg h, modify_eq_self]
      intro m' hm'
      rw [swept, if_neg (hs m' hm' ▸ h)]

theorem foldl_sweep (f : Feed) (s : List Nat) : ∃ log,
    s.foldl (fun f n =>
      match f.manager? n with
      | some m => if m.alive && !f.isNeeded n then f.endManager n else f
      | none => f) f =
    { f with
      managers := s.foldl (fun ms n => ms.modify n (f.swept n)) f.managers, log := log } := by
  induction s generalizing f with
  | nil => exact ⟨f.log, rfl⟩
  | cons n s ih =>
    obtain ⟨log, hn⟩ := f.sweep_one n
    rw [List.foldl_cons, hn]
    exact ih _

/-- Only managers and the log change when managers end. -/
theorem sweep_eq (f : Feed) : ∃ managers log,
    f.sweep = { f with managers := managers, log := log } ∧
      ∀ n, managers[n]? = (f.manager? n).map (f.swept n) := by
  obtain ⟨log, h⟩ := f.foldl_sweep (List.range f.managers.length)
  refine ⟨_, log, h, fun n => ?_⟩
  have key : ∀ (s : List Nat) (ms : List Manager),
      (s.foldl (fun ms k => ms.modify k (f.swept k)) ms)[n]? =
        (ms[n]?).map fun m => if n ∈ s then f.swept n m else m := by
    intro s
    induction s with
    | nil => simp
    | cons k s ih =>
      intro ms
      rw [List.foldl_cons, ih, List.getElem?_modify]
      by_cases hk : k = n
      · subst hk
        cases ms[k]? <;> simp [swept_swept]
      · cases ms[n]? <;> simp [hk, Ne.symm hk]
  rw [key, manager?]
  cases hm : f.managers[n]? with
  | none => rfl
  | some m => simp [(List.getElem?_eq_some_iff.1 hm).1]

theorem manager?_sweep (f : Feed) (n : Nat) :
    f.sweep.manager? n = (f.manager? n).map (f.swept n) := by
  obtain ⟨managers, log, h, hm⟩ := f.sweep_eq
  rw [h]
  exact hm n

@[simp] theorem tasks_sweep (f : Feed) : f.sweep.tasks = f.tasks := by
  obtain ⟨_, _, h, -⟩ := f.sweep_eq
  rw [h]

@[simp] theorem nextTask_sweep (f : Feed) : f.sweep.nextTask = f.nextTask := by
  obtain ⟨_, _, h, -⟩ := f.sweep_eq
  rw [h]

@[simp] theorem files_sweep (f : Feed) : f.sweep.files = f.files := by
  obtain ⟨_, _, h, -⟩ := f.sweep_eq
  rw [h]

@[simp] theorem requests_sweep (f : Feed) : f.sweep.requests = f.requests := by
  obtain ⟨_, _, h, -⟩ := f.sweep_eq
  rw [h]

@[simp] theorem called_sweep (f : Feed) : f.sweep.called = f.called := by
  obtain ⟨_, _, h, -⟩ := f.sweep_eq
  rw [h]

end Feed

end RadarFeed
