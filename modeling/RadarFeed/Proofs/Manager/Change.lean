import RadarFeed.Manager
import RadarFeed.Proofs.Refresh.Silence

/-!
What can happen to a manager.

All that a feed does with a manager is a `ManagerMove`, and `change` is the manager after it. A
machine that a manager has stays: to it a change is some steps of its own (`machine?_change`), and
the subscribers are told what these bring about (`news_change`). `Sound` is what holds of the
machines of every manager.
-/

namespace RadarFeed

/-- A change of a manager. -/
inductive ManagerMove where
  /-- A step of the machine of the volumes, or of a product. -/
  | step (product : Option String) (move : RefreshMove)
  | ensureMachine (product : String)
  | ensureCache (product : String)
  | computeGrids
  | store (r : Record)
  | requestProducts
  | listProducts (available : List String)
  /-- Nobody needs the manager any more. -/
  | close

/-- The steps of the machine of a product in a change of its manager. -/
def ManagerMove.stepsOf (product : Option String) : ManagerMove → List RefreshMove
  | .step p move => if p.map Ascii.upper = product.map Ascii.upper then [move] else []
  | .close => [.disable]
  | _ => []

theorem ManagerMove.eq_of_enable_mem {product : Option String} {c : ManagerMove}
    (h : .enable ∈ c.stepsOf product) : ∃ p, c = .step p .enable := by
  cases c with
  | step p move =>
    simp only [stepsOf] at h
    split at h
    · exact ⟨p, by rw [List.mem_singleton.1 h]⟩
    · cases h
  | close => simp [stepsOf] at h
  | _ => cases h

/-- An event about new objects of a product. -/
def ProductEvent.isOf (product : Option String) : ProductEvent → Bool
  | .newData _ p _ => p = product
  | .productsChanged => false

namespace Manager

variable {m : Manager} {product : Option String} {r : Refresher}

/-- Tells the subscribers what a step of a machine wants them told. -/
def tell (m : Manager) (es : List RefreshEffect) : Manager :=
  { m with events := { m.events with sent := m.events.sent ++ es.filterMap RefreshEffect.event? } }

theorem tell_nil (m : Manager) : m.tell [] = m := by
  simp [tell]

theorem tell_append (m : Manager) (es ds : List RefreshEffect) :
    (m.tell es).tell ds = m.tell (es ++ ds) := by
  simp [tell]

/-- The manager after a change, for the interval at which its new machines ask again. -/
def change (retry : Duration) (m : Manager) : ManagerMove → Manager
  | .step product move =>
    match m.machine? product with
    | none => m
    | some r => (m.setMachine product (r.step move).1).tell (r.step move).2
  | .ensureMachine product => m.ensureMachine retry product
  | .ensureCache product => m.ensureCache product
  | .computeGrids => { m with initialized := true }
  | .store r => m.store r
  | .requestProducts => { m with productsRequested := true }
  | .listProducts available =>
    { m with
      categories := m.categories.update available
      events := m.events.send .productsChanged }
  | .close => { m.disableAll with alive := false }

/-- The manager after several changes. -/
def changes (retry : Duration) (m : Manager) (cs : List ManagerMove) : Manager :=
  cs.foldl (change retry) m

/-- What the subscribers have been told about new objects of a product. -/
def news (m : Manager) (product : Option String) : List ProductEvent :=
  m.events.sent.filter (ProductEvent.isOf (product.map Ascii.upper))

/-- What holds of the machines of a manager: each asks for the product under whose code it stands,
and those of a manager that has ended are disabled. -/
structure Sound (m : Manager) : Prop where
  sound : ∀ {product r}, m.machine? product = some r → r.Sound
  product : ∀ {product r}, m.machine? product = some r → r.product = product.map Ascii.upper
  ended : m.alive = false → ∀ {product r}, m.machine? product = some r → r.enabled = false

/-! ## Machines -/

theorem machine?_congr {p q : Option String} (h : p.map Ascii.upper = q.map Ascii.upper) :
    m.machine? p = m.machine? q := by
  cases p <;> cases q <;> simp [machine?] at h ⊢
  rw [h]

theorem machine?_setMachine (m : Manager) (p q : Option String) (r : Refresher) :
    (m.setMachine p r).machine? q =
      if q.map Ascii.upper = p.map Ascii.upper then some r else m.machine? q := by
  cases p with
  | none => cases q <;> simp [setMachine, machine?]
  | some p =>
    cases q with
    | none => simp [setMachine, machine?]
    | some q =>
      by_cases h : Ascii.upper q = Ascii.upper p
      · simp [setMachine, machine?, h, Keyed.get?_set_same]
      · simp [setMachine, machine?, h, Keyed.get?_set_ne _ h]

theorem machine?_ensureMachine (m : Manager) (retry : Duration) (p : String) (q : Option String) :
    (m.ensureMachine retry p).machine? q =
      (m.machine? q).or (if q.map Ascii.upper = some (Ascii.upper p) then
        some (.new m.radarId (q.map Ascii.upper) retry) else none) := by
  cases q with
  | none => simp [ensureMachine, machine?]
  | some q =>
    simp only [ensureMachine, machine?, Keyed.get?_ensure, Option.map_some, Option.some.injEq]
    by_cases h : Ascii.upper q = Ascii.upper p <;> simp [h]

theorem machine?_disableAll (m : Manager) (product : Option String) :
    m.disableAll.machine? product = (m.machine? product).map fun r => r.disable.1 := by
  cases product with
  | none => rfl
  | some p => exact m.level3.get?_mapValues _ _

theorem machine?_store (m : Manager) (x : Record) (product : Option String) :
    (m.store x).machine? product = m.machine? product := by
  unfold store
  split <;> cases product <;> rfl

theorem machine?_step (hr : m.machine? product = some r) (retry : Duration) (p : Option String)
    (move : RefreshMove) :
    (m.change retry (.step p move)).machine? product =
      some (r.run ((ManagerMove.step p move).stepsOf product)) := by
  simp only [change, ManagerMove.stepsOf]
  by_cases h : p.map Ascii.upper = product.map Ascii.upper
  · rw [machine?_congr h, hr, if_pos h]
    show (m.setMachine p (r.step move).1).machine? product = _
    rw [machine?_setMachine, if_pos h.symm]
    rfl
  · rw [if_neg h]
    split
    · exact hr
    · show (m.setMachine p _).machine? product = _
      rw [machine?_setMachine, if_neg (Ne.symm h)]
      exact hr

/-- To a machine, a change of its manager is some steps. -/
theorem machine?_change (hr : m.machine? product = some r) (retry : Duration) (c : ManagerMove) :
    (m.change retry c).machine? product = some (r.run (c.stepsOf product)) := by
  cases c with
  | step p move => exact machine?_step hr retry p move
  | ensureMachine p => exact (machine?_ensureMachine m retry p product).trans (by rw [hr]; rfl)
  | store x => exact (machine?_store m x product).trans hr
  | close => exact (machine?_disableAll m product).trans (by rw [hr]; rfl)
  | ensureCache | computeGrids | requestProducts | listProducts =>
    cases product <;> exact hr

theorem machine?_change_of_none (hn : m.machine? product = none) {retry : Duration}
    {c : ManagerMove} (hr : (m.change retry c).machine? product = some r) :
    r = .new m.radarId (product.map Ascii.upper) retry := by
  cases c with
  | step p move =>
    simp only [change] at hr
    split at hr
    · rw [hn] at hr; cases hr
    · rename_i s hs
      have hne : ¬ product.map Ascii.upper = p.map Ascii.upper := fun h => by
        rw [machine?_congr h, hs] at hn; cases hn
      have hr : (m.setMachine p _).machine? product = some r := hr
      rw [machine?_setMachine, if_neg hne, hn] at hr; cases hr
  | ensureMachine p =>
    have hr : (m.ensureMachine retry p).machine? product = some r := hr
    rw [machine?_ensureMachine, hn, Option.none_or] at hr
    split at hr
    · exact (Option.some.inj hr).symm
    · cases hr
  | store x =>
    have hr : (m.store x).machine? product = some r := hr
    rw [machine?_store, hn] at hr; cases hr
  | close =>
    have hr : m.disableAll.machine? product = some r := hr
    rw [machine?_disableAll, hn] at hr; cases hr
  | ensureCache | computeGrids | requestProducts | listProducts =>
    have hr : m.machine? product = some r := by cases product <;> exact hr
    rw [hn] at hr; cases hr

/-! ## What holds of the machines -/

theorem alive_change_of_ne {c : ManagerMove} (hc : c ≠ .close) (retry : Duration) (m : Manager) :
    (m.change retry c).alive = m.alive := by
  cases c with
  | close => exact absurd rfl hc
  | step p move =>
    simp only [change]
    split
    · rfl
    · cases p <;> rfl
  | store x =>
    show (m.store x).alive = m.alive
    unfold store
    split <;> rfl
  | ensureMachine | ensureCache | computeGrids | requestProducts | listProducts => rfl

theorem radarId_change (retry : Duration) (m : Manager) (c : ManagerMove) :
    (m.change retry c).radarId = m.radarId := by
  cases c with
  | step p move =>
    simp only [change]
    split
    · rfl
    · cases p <;> rfl
  | store x =>
    show (m.store x).radarId = m.radarId
    unfold store
    split <;> rfl
  | ensureMachine | ensureCache | computeGrids | requestProducts | listProducts | close => rfl

theorem radarId_changes (retry : Duration) (m : Manager) (cs : List ManagerMove) :
    (m.changes retry cs).radarId = m.radarId := by
  induction cs generalizing m with
  | nil => rfl
  | cons c cs ih => exact (ih _).trans (radarId_change retry m c)

theorem alive_changes {cs : List ManagerMove} (hc : ∀ c ∈ cs, c ≠ .close) (retry : Duration)
    (m : Manager) : (m.changes retry cs).alive = m.alive := by
  induction cs generalizing m with
  | nil => rfl
  | cons c cs ih =>
    obtain ⟨hc, hcs⟩ := List.forall_mem_cons.1 hc
    exact (ih hcs _).trans (alive_change_of_ne hc retry m)

/-- Machines of a manager stay sound, if none is enabled once the manager has ended. -/
theorem Sound.change (h : m.Sound) (retry : Duration) {c : ManagerMove}
    (hc : ∀ p, c = .step p .enable → m.alive = true) : (m.change retry c).Sound := by
  have key : ∀ {product s}, (m.change retry c).machine? product = some s →
      (∃ r, m.machine? product = some r ∧ s = r.run (c.stepsOf product)) ∨
        s = .new m.radarId (product.map Ascii.upper) retry := by
    intro product s hs
    cases hr : m.machine? product with
    | none => exact .inr (machine?_change_of_none hr hs)
    | some r =>
      rw [machine?_change hr] at hs
      exact .inl ⟨r, rfl, (Option.some.inj hs).symm⟩
  refine ⟨fun hs => ?_, fun hs => ?_, fun hd product s hs => ?_⟩
  · rcases key hs with ⟨r, hr, rfl⟩ | rfl
    · exact (h.sound hr).run _
    · exact Refresher.sound_new _ _ _
  · rcases key hs with ⟨r, hr, rfl⟩ | rfl
    · rw [Refresher.product_run, h.product hr]
    · rfl
  · rcases key hs with ⟨r, hr, rfl⟩ | rfl
    · by_cases hcl : c = .close
      · subst hcl
        rw [ManagerMove.stepsOf, Refresher.run, Refresher.run, Refresher.step,
          (Refresher.disable_eq r).1]
      · rw [alive_change_of_ne hcl] at hd
        have hn : .enable ∉ c.stepsOf product := fun he => by
          obtain ⟨p, rfl⟩ := ManagerMove.eq_of_enable_mem he
          rw [hc p rfl] at hd; cases hd
        have hs := Refresher.silent_of_disabled (h.sound hr) (h.ended hd hr) hn
        exact Refresher.status_eq_disabled_iff.1 hs.disabled
    · rfl

theorem sound_new (settings : Settings) (radarId : String) (site : Site) :
    (new settings radarId site).Sound := by
  have key : ∀ {product r}, (new settings radarId site).machine? product = some r →
      product = none ∧ r = .new radarId none (.ofSeconds settings.retryIntervalSecs) := by
    intro product r hr
    cases product with
    | none => exact ⟨rfl, (Option.some.inj hr).symm⟩
    | some p => cases hr
  refine ⟨fun hr => ?_, fun hr => ?_, nofun⟩
  · rw [(key hr).2]; exact Refresher.sound_new _ _ _
  · rw [(key hr).1, (key hr).2]; rfl

/-! ## News -/

theorem filter_events_step (r : Refresher) (product : Option String) (move : RefreshMove) :
    ((r.step move).2.filterMap RefreshEffect.event?).filter (ProductEvent.isOf product) =
      if r.product = product then r.events [move] else [] := by
  have hall : ∀ e ∈ (r.step move).2.filterMap RefreshEffect.event?,
      e.isOf product = decide (r.product = product) := by
    intro e he
    obtain ⟨x, hx, hxe⟩ := List.mem_filterMap.1 he
    cases x with
    | event e' =>
      rw [← Option.some.inj (show some e' = some e from hxe)]
      obtain ⟨time, rfl⟩ := (r.turn move).event (List.mem_filter.2 ⟨hx, rfl⟩)
      rfl
    | _ => cases hxe
  rw [Refresher.events_singleton]
  split
  · rename_i h
    exact List.filter_eq_self.2 fun e he => by rw [hall e he]; exact decide_eq_true h
  · rename_i h
    exact List.filter_eq_nil_iff.2 fun e he => by rw [hall e he]; simpa using h

/-- What subscribers are told of a product is what its machine publishes. -/
theorem news_change (h : m.Sound) (hr : m.machine? product = some r) (retry : Duration)
    (c : ManagerMove) :
    (m.change retry c).news product = m.news product ++ r.events (c.stepsOf product) := by
  have hnil : r.events [] = [] := rfl
  cases c with
  | step p move =>
    simp only [change, ManagerMove.stepsOf]
    split
    · rename_i hp
      have hne : ¬ p.map Ascii.upper = product.map Ascii.upper := fun k => by
        rw [machine?_congr k, hr] at hp; cases hp
      rw [if_neg hne, hnil, List.append_nil]
    · rename_i s hs
      have hsent : ((m.setMachine p (s.step move).1).tell (s.step move).2).events.sent =
          m.events.sent ++ (s.step move).2.filterMap RefreshEffect.event? := by
        cases p <;> rfl
      rw [news, hsent, List.filter_append, filter_events_step, h.product hs]
      by_cases hp : p.map Ascii.upper = product.map Ascii.upper
      · have : s = r := by
          rw [machine?_congr hp, hr] at hs; exact (Option.some.inj hs).symm
        rw [if_pos hp, if_pos hp, this, news]
      · rw [if_neg hp, if_neg hp, hnil, news]
  | store x =>
    have : (m.store x).events = m.events := by unfold store; split <;> rfl
    show (m.store x).news product = m.news product ++ []
    rw [List.append_nil, news, news, this]
  | listProducts =>
    show (m.events.sent ++ [ProductEvent.productsChanged]).filter _ = m.news product ++ []
    rw [List.filter_append]
    rfl
  | close =>
    have : r.events [.disable] = [] := by
      rw [Refresher.events, Refresher.deeds_singleton, Refresher.step, (Refresher.disable_eq r).2]
      rfl
    rw [ManagerMove.stepsOf, this, List.append_nil]
    rfl
  | ensureMachine | ensureCache | computeGrids | requestProducts =>
    exact (List.append_nil _).symm

end Manager

end RadarFeed
