import RadarFeed.Proofs.Feed.Machines

/-!
Enabling and disabling the machine of a product.

Who does so first makes sure that there is a machine (`Ensures`), then waits for the source, and
enables or disables the machine only if the source has answered and offers the product; anything may
happen meanwhile. Such a move concerns one machine (`Toggles`), whatever the letter case of its
product, and otherwise shows in the log at most. A machine is enabled in no other way, so that one
whose product was never offered is as new (`Unrefreshed`). `toggled_when_offered` says all this of
every run.
-/

namespace RadarFeed

theorem MachineId.Same.trans {a b c : MachineId} (hab : a.Same b) (hbc : b.Same c) : a.Same c :=
  ⟨hab.1.trans hbc.1, hab.2.trans hbc.2⟩

/-- The machine whose cycle or timer work is. -/
def Work.machine? : Work → Option MachineId
  | .cycle machine _ => some machine
  | .timer machine _ => some machine
  | _ => none

namespace Feed

variable {f g : Feed} {id : MachineId} {n : Nat} {product : String}

/-! ## Moves that concern one machine -/

/-- At most the log has changed. -/
def Leaves (f g : Feed) : Prop :=
  ∃ log, g = { f with log := log }

/-- From `f` to `g` there is a machine for a product: the one that there was, or a new one. -/
structure Ensures (f g : Feed) (n : Nat) (product : String) : Prop where
  machine : ∀ m, f.manager? n = some m → g.machine? ⟨n, some product⟩ =
    some ((f.machine? ⟨n, some product⟩).getD (.new m.radarId (some (Ascii.upper product)) f.retry))
  others : ∀ id, ¬ id.Same ⟨n, some product⟩ → g.machine? id = f.machine? id
  tasks : g.tasks = f.tasks

/-- From `f` to `g` a machine is enabled or disabled: it makes this step, no other one does
anything, and the only work that may be new is a cycle of the machine. -/
structure Toggles (f g : Feed) (id : MachineId) (on : Bool) : Prop where
  machine : g.machine? id = (f.machine? id).map fun r => (r.step (switch on)).1
  others : ∀ other : MachineId, ¬ other.Same id → g.machine? other = f.machine? other
  tasks : ∀ t ∈ g.tasks,
    t ∈ f.tasks ∨ t.work = .cycle ⟨id.manager, id.product.map Ascii.upper⟩ false

theorem mem_tasks_foldl_perform {t : Task} (ht : t ∈ f.tasks) (id : MachineId)
    (es : List RefreshEffect) : t ∈ (es.foldl (fun f e => f.perform id e) f).tasks := by
  induction es generalizing f with
  | nil => exact ht
  | cons e es ih =>
    refine ih ?_
    cases e with
    | log | event => exact ht
    | cycle | timer => exact List.mem_append_left _ ht

theorem mem_tasks_stepMachine {t : Task} (ht : t ∈ f.tasks) (id : MachineId) (step : RefreshMove) :
    t ∈ (f.stepMachine id step).tasks := by
  unfold stepMachine
  split
  · exact ht
  · exact mem_tasks_foldl_perform (f := f.update id.manager _) ht id _

/-- All that enabling or disabling a machine starts is a cycle. -/
theorem work_of_switch {r : Refresher} {on : Bool} {e : RefreshEffect} {w : Work}
    (he : e ∈ (r.step (switch on)).2) (hw : e.work? id = some w) : w = .cycle id false := by
  have hmem : e ∈ (r.step (switch on)).2.filter fun e => !e.isLine := by
    refine List.mem_filter.2 ⟨he, ?_⟩
    cases e with
    | log line => cases hw
    | event | cycle | timer => rfl
  have hturn := r.turn (switch on)
  generalize (r.step (switch on)).2.filter (fun e => !e.isLine) = es at hmem hturn
  generalize (r.step (switch on)).1 = s at hturn
  cases on with
  | true =>
    cases hturn with
    | enabledAlready => cases hmem
    | enabled =>
      rw [List.mem_singleton.1 hmem] at hw
      exact (Option.some.inj hw).symm
  | false =>
    cases hturn with
    | disabled => cases hmem

/-- The tasks after a step that enables or disables a machine. -/
theorem mem_of_mem_tasks_switch {on : Bool} {t : Task}
    (ht : t ∈ (f.stepMachine id (switch on)).tasks) : t ∈ f.tasks ∨ t.work = .cycle id false := by
  have hproceeds : Proceeds (fun x => x = .start (.cycle id false)) f.tasks f.nextTask
      (f.stepMachine id (switch on)).tasks (f.stepMachine id (switch on)).nextTask := by
    unfold stepMachine
    split
    · exact .refl
    · exact proceeds_foldl_perform id _ (fun e he w hw => by rw [work_of_switch he hw]) _ .refl
  rcases hproceeds.mem ht with ht | ht | ht
  · exact .inl ht
  · exact .inr (TaskMove.start.inj ht)
  · cases ht

/-- A manager that is changed without being closed lives on, if it is still needed. -/
theorem Tended.changed (h : f.Tended) {c : ManagerMove} (hc : c ≠ .close)
    (hg : g.managers = f.managers.modify n (Manager.change f.retry · c))
    (hneeded : ∀ k, f.isNeeded k = true → g.isNeeded k = true) : g.Tended := by
  intro k m hm hal
  have hm : g.managers[k]? = some m := hm
  rw [hg, List.getElem?_modify] at hm
  obtain ⟨m', hm', rfl⟩ := Option.map_eq_some_iff.1 hm
  refine hneeded k (h k m' hm' ?_)
  split at hal
  · rwa [Manager.alive_change_of_ne hc] at hal
  · exact hal

theorem isNeeded_mono (hh : g.holders = f.holders) (ht : ∀ t ∈ f.tasks, t ∈ g.tasks) {k : Nat}
    (hk : f.isNeeded k = true) : g.isNeeded k = true := by
  unfold isNeeded at hk ⊢
  rw [Bool.or_eq_true, List.any_eq_true] at hk ⊢
  rw [hh]
  refine hk.imp_right ?_
  rintro ⟨t, hmem, hkeeps⟩
  exact ⟨t, ht t hmem, hkeeps⟩

/-- Where only managers that somebody needs live, none ends. -/
theorem Tended.sweep_leaves (h : f.Tended) : f.Leaves f.sweep := by
  obtain ⟨managers, log, he, hm⟩ := f.sweep_eq
  have hmanagers : managers = f.managers := by
    refine List.ext_getElem? fun k => ?_
    rw [hm]
    cases hk : f.manager? k with
    | none => exact hk.symm
    | some m =>
      have hswept : f.swept k m = m := by
        unfold swept
        rw [if_neg]
        intro hend
        rw [Bool.and_eq_true, Bool.not_eq_true'] at hend
        rw [h k m hk hend.1] at hend
        cases hend.2
      rw [Option.map_some, hswept]
      exact hk.symm
  exact ⟨log, by rw [he, hmanagers]⟩

theorem Leaves.machine? (h : f.Leaves g) (id : MachineId) : g.machine? id = f.machine? id := by
  obtain ⟨log, rfl⟩ := h
  rfl

theorem Leaves.tasks (h : f.Leaves g) : g.tasks = f.tasks := by
  obtain ⟨log, rfl⟩ := h
  rfl

theorem Toggles.congr {a b : MachineId} {on : Bool} (h : f.Toggles g a on) (hab : a.Same b) :
    f.Toggles g b on := by
  refine ⟨?_, fun other ho => h.others other fun ha => ho (ha.trans hab), fun t ht => ?_⟩
  · rw [← machine?_congr hab, ← machine?_congr hab, h.machine]
  · rw [← hab.1, ← hab.2]
    exact h.tasks t ht

theorem Tended.toggles (h : f.Tended) (id : MachineId) (on : Bool)
    (hid : id.product.map Ascii.upper = id.product) :
    f.Toggles (f.stepMachine id (switch on)).sweep id on := by
  have htended : (f.stepMachine id (switch on)).Tended := by
    refine h.changed (c := .step id.product (switch on)) ManagerMove.noConfusion
      (managers_stepMachine f id (switch on)) fun k => isNeeded_mono ?_ fun t ht => ?_
    · obtain ⟨_, _, _, _, he⟩ := f.stepMachine_eq id (switch on)
      rw [he]
    · exact mem_tasks_stepMachine ht id (switch on)
  have hleaves := htended.sweep_leaves
  refine ⟨?_, fun other ho => ?_, fun t ht => ?_⟩
  · rw [hleaves.machine?, machine?_stepMachine, if_pos ⟨rfl, rfl⟩]
  · rw [hleaves.machine?, machine?_stepMachine, if_neg ho]
  · rw [hleaves.tasks] at ht
    rw [hid]
    exact mem_of_mem_tasks_switch ht

theorem Tended.ensureMachine_leaves (h : f.Tended) (n : Nat) (product : String) :
    (f.ensureMachine n product).Leaves (f.ensureMachine n product).sweep := by
  obtain ⟨_, _, he⟩ := f.ensureMachine_eq n product
  refine (h.changed (c := .ensureMachine product) ManagerMove.noConfusion
    (managers_ensureMachine f n product) fun k => isNeeded_mono ?_ fun t ht => ?_).sweep_leaves
  · rw [he]
  · rw [he]
    exact ht

theorem Tended.ensures (h : f.Tended) (n : Nat) (product : String) :
    f.Ensures (f.ensureMachine n product).sweep n product := by
  obtain ⟨_, _, he⟩ := f.ensureMachine_eq n product
  have hleaves := h.ensureMachine_leaves n product
  refine ⟨fun m hm => ?_, fun id hid => ?_, ?_⟩
  · rw [hleaves.machine?, machine?_ensureMachine, if_pos ⟨rfl, rfl⟩, hm]
    cases f.machine? ⟨n, some product⟩ <;> rfl
  · rw [hleaves.machine?, machine?_ensureMachine, if_neg hid, Option.or_none]
  · rw [hleaves.tasks, he]

/-- A machine that is there stays as it is. -/
theorem Tended.machine?_ensures (h : f.Tended) (n : Nat) (product : String) {r : Refresher}
    (hr : f.machine? id = some r) : (f.ensureMachine n product).sweep.machine? id = some r := by
  rw [(h.ensureMachine_leaves n product).machine?, machine?_ensureMachine, hr, Option.some_or]

/-! ## Products that were never offered -/

/-- A source has answered, and offers a product in some letter case. -/
def isOffered (product : String) : Except SourceError (List String) → Bool
  | .ok offered => offered.any fun p => Ascii.sameLetters p product
  | .error _ => false

/-- Whenever the machine of a product was to be enabled, the source did not offer the product. -/
def NeverOffered (n : Nat) (product : String) (moves : List FeedMove) : Prop :=
  ∀ name answer, .toggleProduct n name true answer ∈ moves →
    Ascii.upper name = Ascii.upper product → isOffered name answer = false

/-- The machine of a product, if there is one, is as new: it is disabled and has never had a cycle
or a timer. -/
structure Unrefreshed (f : Feed) (n : Nat) (product : String) : Prop where
  machine : ∀ m r, f.manager? n = some m → m.machine? (some product) = some r →
    r = .new m.radarId (some (Ascii.upper product)) f.retry
  tasks : ∀ t ∈ f.tasks, ∀ id, t.work.machine? = some id → ¬ id.Same ⟨n, some product⟩

theorem apply_toggleProduct (f : Feed) (n : Nat) (product : String) (on : Bool)
    (answer : Except SourceError (List String)) :
    (isOffered product answer = true → f.apply (.toggleProduct n product on answer) =
      f.stepMachine ⟨n, some (Ascii.upper product)⟩ (switch on)) ∧
    (isOffered product answer = false →
      f.Leaves (f.apply (.toggleProduct n product on answer))) := by
  cases answer with
  | error e =>
    refine ⟨fun h => (by cases h), fun _ => ?_⟩
    exact f.sayOf_eq _ _ _
  | ok offered =>
    have hif : f.apply (.toggleProduct n product on (.ok offered)) =
        if isOffered product (.ok offered) = true then
          f.stepMachine ⟨n, some (Ascii.upper product)⟩ (switch on)
        else f.sayOf ⟨n, some product⟩ .debug "Product not offered" := rfl
    rw [hif]
    refine ⟨fun h => if_pos h, fun h => ?_⟩
    rw [if_neg (by rw [h]; exact Bool.false_ne_true)]
    exact f.sayOf_eq _ _ _

theorem exists_task_of_work? {task : Nat} {w : Work} (h : f.work? task = some w) :
    ∃ t ∈ f.tasks, t.work = w := by
  obtain ⟨t, ht, hw⟩ := Option.map_eq_some_iff.1 h
  exact ⟨t, List.mem_of_find?_eq_some ht, hw⟩

/-- A machine that has neither work of its own nor is enabled can be disabled at most. -/
theorem Unrefreshed.eq_disable (h : f.Unrefreshed n product) {move : FeedMove}
    (hno : NeverOffered n product [move]) {q : Option String} {step : RefreshMove}
    (hc : f.Causes move n (.step q step)) (hq : q.map Ascii.upper = some (Ascii.upper product)) :
    step = .disable := by
  have hidle : ∀ task w, f.work? task = some w → w.machine? ≠ some ⟨n, q⟩ := by
    intro task w hw hmachine
    obtain ⟨t, ht, rfl⟩ := exists_task_of_work? hw
    exact h.tasks t ht ⟨n, q⟩ hmachine ⟨rfl, hq⟩
  generalize hx : ManagerMove.step q step = c at hc
  cases hc with
  | volumes =>
    cases hx
    cases hq
  | @product _ name on offered ho =>
    cases hx
    cases on with
    | false => rfl
    | true =>
      have hname : Ascii.upper name = Ascii.upper product := by
        rw [← Ascii.upper_upper name]
        exact Option.some.inj hq
      have hnot := hno name (.ok offered) List.mem_cons_self hname
      rw [isOffered, ho] at hnot
      cases hnot
  | begins hw | ends hw | timer hw =>
    cases hx
    exact absurd rfl (hidle _ _ hw)
  | _ => cases hx

theorem Unrefreshed.machine_move (h : f.Unrefreshed n product) {move : FeedMove}
    (hno : NeverOffered n product [move]) {m : Manager} {r : Refresher}
    (hm : (f.move move).manager? n = some m) (hr : m.machine? (some product) = some r) :
    r = .new m.radarId (some (Ascii.upper product)) f.retry := by
  refine managers_move (I := fun k m => k = n → ∀ r, m.machine? (some product) = some r →
    r = .new m.radarId (some (Ascii.upper product)) f.retry) move ?_ ?_ ?_ n m hm rfl r hr
  · rintro k radarId site rfl r hr
    cases hr
  · rintro k m c hc hnew rfl r hr
    rw [Manager.radarId_change]
    cases hold : m.machine? (some product) with
    | none => exact Manager.machine?_change_of_none hold hr
    | some s =>
      obtain rfl := hnew rfl s hold
      rw [Manager.machine?_change hold] at hr
      obtain rfl := Option.some.inj hr
      cases c with
      | step q step =>
        simp only [ManagerMove.stepsOf]
        split
        · rename_i hq
          rcases hc with hc | hc
          · rw [h.eq_disable hno hc hq]
            rfl
          · cases hc
        · rfl
      | _ => rfl
  · rintro k m' hm' rfl r hr
    exact h.machine m' r hm' hr

theorem Unrefreshed.tasks_move (h : f.Unrefreshed n product) {move : FeedMove}
    (hno : NeverOffered n product [move]) {t : Task} (ht : t ∈ (f.move move).tasks)
    {id : MachineId} (hid : t.work.machine? = some id) : ¬ id.Same ⟨n, some product⟩ := by
  rintro hsame
  unfold Feed.move at ht
  split at ht
  · rw [tasks_sweep] at ht
    rcases (tasks_apply f move).mem ht with ht | hd | hd
    · exact h.tasks t ht id hid hsame
    · generalize t.work = w at hid hd
      cases hd with
      | @effect _ k q step r e w hc hr he hw =>
        have hk : id = ⟨k, q⟩ := by
          cases e with
          | cycle | timer =>
            cases hw
            exact (Option.some.inj hid).symm
          | log | event => cases hw
        subst hk
        obtain ⟨rfl, hq⟩ := hsame
        obtain rfl := h.eq_disable hno hc hq
        obtain ⟨m, hm, hr⟩ := Option.bind_eq_some_iff.1 hr
        have hr : m.machine? q = some r := hr
        rw [Manager.machine?_congr hq] at hr
        obtain rfl := h.machine m r hm hr
        cases he
      | load | products => cases hid
    · generalize t.work = w at hid hd
      generalize t.id = task at hd
      cases hd with
      | begun hw =>
        obtain ⟨t', ht', hw'⟩ := exists_task_of_work? hw
        obtain rfl := Option.some.inj hid
        exact h.tasks t' ht' _ (by rw [hw']; rfl) hsame
      | advances | asked => cases hid
  · exact h.tasks t ht id hid hsame

theorem Unrefreshed.move (h : f.Unrefreshed n product) {move : FeedMove}
    (hno : NeverOffered n product [move]) : (f.move move).Unrefreshed n product := by
  refine ⟨fun m r hm hr => ?_, fun t ht id hid => h.tasks_move hno ht hid⟩
  rw [retry_move]
  exact h.machine_move hno hm hr

theorem unrefreshed_run (sites : SiteTable) (settings : Settings) {moves : List FeedMove}
    (hno : NeverOffered n product moves) :
    ((new sites settings).run moves).Unrefreshed n product := by
  have hnew : (new sites settings).Unrefreshed n product :=
    ⟨fun m r hm => (by cases hm), fun t ht => (by cases ht)⟩
  refine run_of_move (I := fun g => g.Unrefreshed n product) hnew ?_
  intro g move hmove hg
  refine hg.move fun name answer hmem hname => ?_
  obtain rfl := List.mem_singleton.1 hmem
  exact hno name answer hmove hname

/-- **The machines of products.** A call that enables or disables the machine of a product begins
after any moves, any others lie between its begin and the answer of the source. However products are
spelled, each has one machine, which the call makes sure of and which stays. If the source does not
answer, or does not offer the product, no machine is touched; if it does, the machine of the product
is enabled or disabled, and no other one is concerned. So no machine of a product that was never
offered ever has a cycle. -/
theorem toggled_when_offered (sites : SiteTable) (settings : Settings)
    (before during : List FeedMove) (n : Nat) (product : String) (on : Bool)
    (answer : Except SourceError (List String)) :
    let f := (new sites settings).run before
    let g := f.move (.machine n product)
    let h := g.run during
    let k := h.move (.toggleProduct n product on answer)
    f.OneEach ∧ (∀ id, creations id (new sites settings) before ≤ 1) ∧
      (∀ id r, f.machine? id = some r →
        g.machine? id = some r ∧ ∃ steps, h.machine? id = some (r.run steps)) ∧
      (n ∈ f.holders → f.Ensures g n product ∧ ∃ r, h.machine? ⟨n, some product⟩ = some r) ∧
      (isOffered product answer = false → h.Leaves k) ∧
      (n ∈ h.holders → isOffered product answer = true → h.Toggles k ⟨n, some product⟩ on) ∧
      (∀ on, n ∈ f.holders → f.Toggles (f.move (.toggleVolumes n on)) ⟨n, none⟩ on) ∧
      (NeverOffered n product before → f.Unrefreshed n product) := by
  intro f g h k
  have hf : f.Tended := tended_run_new sites settings before
  have hg : n ∈ f.holders → g = (f.ensureMachine n product).sweep := fun hn =>
    if_pos (List.contains_iff_mem.2 hn)
  have hh : h.Tended := (hf.run [.machine n product]).run during
  have hk : n ∈ h.holders → k = (h.apply (.toggleProduct n product on answer)).sweep := fun hn =>
    if_pos (List.contains_iff_mem.2 hn)
  obtain ⟨hoffered, hnot⟩ := h.apply_toggleProduct n product on answer
  refine ⟨oneEach_run sites settings before, fun id => creations_le_one id _ before, ?stays,
    ?begins, ?refused, ?ends, ?volumes, fun hno => unrefreshed_run sites settings hno⟩
  case stays =>
    intro id r hr
    have hgr : g.machine? id = some r := by
      by_cases hn : n ∈ f.holders
      · rw [hg hn]
        exact hf.machine?_ensures n product hr
      · have hsame : g = f := if_neg (by simpa [allows] using hn)
        rw [hsame, hr]
    exact ⟨hgr, machine?_run hgr during⟩
  case begins =>
    intro hn
    have hensures : f.Ensures g n product := by
      rw [hg hn]
      exact hf.ensures n product
    obtain ⟨m, hm, -⟩ := (sound_run_new sites settings before).held hn
    obtain ⟨steps, hs⟩ := machine?_run (hensures.machine m hm) during
    exact ⟨hensures, _, hs⟩
  case refused =>
    intro ho
    by_cases hn : n ∈ h.holders
    · obtain ⟨log, hlog⟩ := hnot ho
      have htended : ({ h with log := log } : Feed).Tended := hh
      obtain ⟨log', hlog'⟩ := htended.sweep_leaves
      exact ⟨log', by rw [hk hn, hlog, hlog']⟩
    · exact ⟨h.log, if_neg (by simpa [allows] using hn)⟩
  case ends =>
    intro hn ho
    rw [hk hn, hoffered ho]
    refine (hh.toggles ⟨n, some (Ascii.upper product)⟩ on ?_).congr ⟨rfl, ?_⟩
    · simp [Ascii.upper_upper]
    · simp [Ascii.upper_upper]
  case volumes =>
    intro on hn
    have hmove : f.move (.toggleVolumes n on) = (f.stepMachine ⟨n, none⟩ (switch on)).sweep :=
      if_pos (List.contains_iff_mem.2 hn)
    rw [hmove]
    exact hf.toggles ⟨n, none⟩ on rfl

/-- One product is not offered; another one is, under a name in capitals, while the volumes are
enabled. -/
theorem toggled_when_offered_in_capitals :
    let f := (new .empty .default).run
      [.hold "KLSX", .machine 0 "XYZ", .toggleProduct 0 "xyz" true (.ok ["N0B"])]
    let g := f.move (.machine 0 "n0b")
    let h := g.run [.toggleVolumes 0 true]
    let k := h.move (.toggleProduct 0 "n0b" true (.ok ["N0B", "N0G"]))
    f.Ensures g 0 "n0b" ∧ h.Toggles k ⟨0, some "n0b"⟩ true ∧
      f.Toggles (f.move (.toggleVolumes 0 true)) ⟨0, none⟩ true ∧ f.Unrefreshed 0 "XYZ" := by
  intro f g h k
  obtain ⟨-, -, -, begins, -, ends, volumes, -⟩ := toggled_when_offered .empty .default
    [.hold "KLSX", .machine 0 "XYZ", .toggleProduct 0 "xyz" true (.ok ["N0B"])]
    [.toggleVolumes 0 true] 0 "n0b" true (.ok ["N0B", "N0G"])
  obtain ⟨-, -, -, -, -, -, -, unrefreshed⟩ := toggled_when_offered .empty .default
    [.hold "KLSX", .machine 0 "XYZ", .toggleProduct 0 "xyz" true (.ok ["N0B"])] [] 0 "XYZ" true
    (.ok [])
  refine ⟨(begins (by decide)).1, ends (by decide) (by decide), volumes true (by decide),
    unrefreshed ?_⟩
  intro name answer hmem _
  simp only [List.mem_cons, List.not_mem_nil, FeedMove.toggleProduct.injEq, reduceCtorEq, true_and,
    false_or, or_false] at hmem
  obtain ⟨rfl, rfl⟩ := hmem
  decide

end Feed

end RadarFeed
