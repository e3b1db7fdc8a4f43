import RadarFeed.Proofs.Feed.Managers

/-!
What a move does to the tasks of a feed.

`Drives` lists all that moves do with tasks. The tasks after a move come from those before it in
this way (`tasks_apply`): a task goes on only by a change of its own (`Proceeds.work`), and one that
was not there, or does something else, is what the move has driven (`Proceeds.mem`).
-/

namespace RadarFeed

/-- A change of the tasks of a feed. -/
inductive TaskMove where
  | start (w : Work)
  | goOn (id : Nat) (w : Work)
  | finish (id : Nat)

/-- The work that a step of a machine starts. -/
def RefreshEffect.work? (id : MachineId) : RefreshEffect → Option Work
  | .cycle => some (.cycle id false)
  | .timer token => some (.timer id token)
  | _ => none

namespace Feed

/-- The steps of the load of a task that has no result yet. -/
inductive Advances (f : Feed) : FeedMove → Nat → Load → LoadPhase → Prop where
  | enters {move id l phase} : f.Enters move id l phase → Advances f move id l phase
  | routed {id l bytes file remarks} : l.phase = .decoding bytes →
      Advances f (.decoded id (.file file) remarks) id l
        (.initializing (.ofFile f.nextSerial file) (f.manager (Ascii.upper file.radarId)).2)
  | stored {id l r owner} : l.phase = .initializing r owner →
      Advances f (.gridsReady id) id l (.answering (some (f.stored owner r)))

/-- What a move does with tasks. -/
inductive Drives (f : Feed) : FeedMove → TaskMove → Prop where
  | load {n source request} :
      Drives f (.load n source request) (.start (.load ⟨n, source, request, .waiting⟩))
  | advances {move id l phase} : f.load? id = some l → f.Advances move id l phase →
      Drives f move (.goOn id (.load { l with phase := phase }))
  | answered {id l result} : f.load? id = some l → l.phase = .answering result →
      Drives f (.answer id) (.finish id)
  | products {n} : Drives f (.updateProducts n) (.start (.products n false))
  | asked {id n} : f.work? id = some (.products n false) →
      Drives f (.productsAsked id) (.goOn id (.products n true))
  | listed {id n answer available} : f.work? id = some (.products n true) →
      Drives f (.productsListed id answer available) (.finish id)
  /-- A step of a machine queues a cycle or arms a timer. -/
  | effect {move n product step r e w} : f.Causes move n (.step product step) →
      f.machine? ⟨n, product⟩ = some r → e ∈ (r.step step).2 → e.work? ⟨n, product⟩ = some w →
      Drives f move (.start w)
  | begun {id machine r} : f.work? id = some (.cycle machine false) →
      f.machine? machine = some r → r.inFlight = false → r.enabled = true →
      Drives f (.cycleBegins id) (.goOn id (.cycle machine true))
  | refused {id machine} : f.work? id = some (.cycle machine false) →
      (∀ r, f.machine? machine = some r → r.inFlight = false ∧ r.enabled = false) →
      Drives f (.cycleBegins id) (.finish id)
  | ended {id machine answer} : f.work? id = some (.cycle machine true) →
      Drives f (.cycleEnds id answer) (.finish id)
  | timer {id machine token how} : f.work? id = some (.timer machine token) →
      Drives f (.timerEnds id how) (.finish id)

/-- The tasks `t`, of which `j` would be the next, come from `s` and `k` by changes in `P`. -/
inductive Proceeds (P : TaskMove → Prop) (s : List Task) (k : Nat) : List Task → Nat → Prop where
  | refl : Proceeds P s k s k
  | start {t j w} : Proceeds P s k t j → P (.start w) → Proceeds P s k (t ++ [⟨j, w⟩]) (j + 1)
  | goOn {t j id w} : Proceeds P s k t j → P (.goOn id w) →
      Proceeds P s k (t.map fun t => if t.id = id then ⟨id, w⟩ else t) j
  | finish {t j id} : Proceeds P s k t j → P (.finish id) →
      Proceeds P s k (t.filter fun t => t.id ≠ id) j

/-! ## Tasks one by one -/

def workIn (s : List Task) (id : Nat) : Option Work :=
  (s.find? fun t => t.id = id).map Task.work

section
variable {P : TaskMove → Prop} {s t : List Task} {k j : Nat}

theorem workIn_append (s : List Task) (id j : Nat) (w : Work) :
    workIn (s ++ [⟨j, w⟩]) id = (workIn s id).or (if j = id then some w else none) := by
  unfold workIn
  rw [List.find?_append]
  cases s.find? fun t => t.id = id with
  | some t => rfl
  | none => by_cases h : j = id <;> simp [h]

theorem workIn_goOn (s : List Task) (id k : Nat) (w : Work) :
    workIn (s.map fun t => if t.id = k then ⟨k, w⟩ else t) id =
      (workIn s id).map fun v => if id = k then w else v := by
  induction s with
  | nil => rfl
  | cons t s ih =>
    unfold workIn at ih ⊢
    by_cases hk : t.id = k <;> by_cases hid : t.id = id
    · subst hk; simp [← hid]
    · have : ¬ k = id := hk ▸ hid
      simpa [hk, hid, this] using ih
    · have : ¬ id = k := hid ▸ hk
      simp [hid, this]
    · simpa [hk, hid] using ih

theorem workIn_finish (s : List Task) (id k : Nat) :
    workIn (s.filter fun t => t.id ≠ k) id = if id = k then none else workIn s id := by
  unfold workIn
  rw [List.find?_filter]
  by_cases h : id = k
  · subst h
    rw [if_pos rfl, List.find?_eq_none.2 (by simp)]
    rfl
  · rw [if_neg h]
    congr 2
    funext t
    by_cases ht : t.id = id <;> simp [ht, h]

theorem Proceeds.mem (h : Proceeds P s k t j) {x : Task} (hx : x ∈ t) :
    x ∈ s ∨ P (.start x.work) ∨ P (.goOn x.id x.work) := by
  induction h generalizing x with
  | refl => exact .inl hx
  | start _ hp ih =>
    rcases List.mem_append.1 hx with hx | hx
    · exact ih hx
    · rw [List.mem_singleton.1 hx]; exact .inr (.inl hp)
  | goOn _ hp ih =>
    obtain ⟨y, hy, rfl⟩ := List.mem_map.1 hx
    split
    · exact .inr (.inr hp)
    · exact ih hy
  | finish _ _ ih => exact ih (List.mem_filter.1 hx).1

/-- Numbers of tasks are not used twice. -/
theorem Proceeds.fresh (h : Proceeds P s k t j) (hs : ∀ x ∈ s, x.id < k) :
    k ≤ j ∧ ∀ x ∈ t, x.id < j := by
  induction h with
  | refl => exact ⟨Nat.le_refl _, hs⟩
  | start _ _ ih =>
    refine ⟨Nat.le_succ_of_le ih.1, fun x hx => ?_⟩
    rcases List.mem_append.1 hx with hx | hx
    · exact Nat.lt_succ_of_lt (ih.2 x hx)
    · rw [List.mem_singleton.1 hx]; exact Nat.lt_succ_self _
  | goOn _ _ ih =>
    refine ⟨ih.1, fun x hx => ?_⟩
    obtain ⟨y, hy, rfl⟩ := List.mem_map.1 hx
    have := ih.2 y hy
    split
    · rename_i he; exact he ▸ this
    · exact this
  | finish _ _ ih => exact ⟨ih.1, fun x hx => ih.2 x (List.mem_filter.1 hx).1⟩

theorem Proceeds.nodup (h : Proceeds P s k t j) (hs : ∀ x ∈ s, x.id < k)
    (hn : (s.map Task.id).Nodup) : (t.map Task.id).Nodup := by
  induction h with
  | refl => exact hn
  | @start t j w h _ ih =>
    rw [List.map_append, List.nodup_append]
    refine ⟨ih, by simp, ?_⟩
    intro a ha b hb
    obtain ⟨x, hx, rfl⟩ := List.mem_map.1 ha
    have hlt : x.id < j := (h.fresh hs).2 x hx
    have hb : b = j := by simpa using hb
    omega
  | @goOn t j id w _ _ ih =>
    have he : (t.map fun x => if x.id = id then ⟨id, w⟩ else x).map Task.id = t.map Task.id := by
      rw [List.map_map]
      refine List.map_congr_left fun x _ => ?_
      by_cases hx : x.id = id <;> simp [hx]
    rw [he]
    exact ih
  | finish _ _ ih => exact ih.sublist (List.filter_sublist.map _)

/-- A task goes on only by a change of its own. -/
theorem Proceeds.work (h : Proceeds P s k t j) (hs : ∀ x ∈ s, x.id < k) {id : Nat}
    (hid : id < k) :
    workIn t id = workIn s id ∨ (∃ w, P (.goOn id w) ∧ workIn t id = some w) ∨
      (P (.finish id) ∧ workIn t id = none) := by
  induction h with
  | refl => exact .inl rfl
  | @start t j w h _ ih =>
    have hj : ¬ j = id := Nat.ne_of_gt (Nat.lt_of_lt_of_le hid (h.fresh hs).1)
    simpa [workIn_append, hj] using ih
  | @goOn t j i w _ hp ih =>
    rw [workIn_goOn]
    by_cases hi : id = i
    · subst hi
      cases hw : workIn t id with
      | none => rw [hw] at ih; simpa using ih
      | some v => exact .inr (.inl ⟨w, hp, by simp⟩)
    · simpa [hi] using ih
  | @finish t j i _ hp ih =>
    rw [workIn_finish]
    by_cases hi : id = i
    · subst hi; exact .inr (.inr ⟨hp, by simp⟩)
    · simpa [hi] using ih

end

/-! ## Moves -/

theorem proceeds_foldl_perform {P : TaskMove → Prop} {s : List Task} {k : Nat} (id : MachineId)
    (es : List RefreshEffect) (hp : ∀ e ∈ es, ∀ w, e.work? id = some w → P (.start w)) (g : Feed)
    (h : Proceeds P s k g.tasks g.nextTask) :
    Proceeds P s k (es.foldl (fun f e => f.perform id e) g).tasks
      (es.foldl (fun f e => f.perform id e) g).nextTask := by
  induction es generalizing g with
  | nil => exact h
  | cons e es ih =>
    refine ih (fun d hd => hp d (List.mem_cons_of_mem _ hd)) _ ?_
    cases e with
    | log | event => exact h
    | cycle => exact .start h (hp _ List.mem_cons_self _ rfl)
    | timer token => exact .start h (hp _ List.mem_cons_self _ rfl)

theorem proceeds_stepMachine {f : Feed} {move : FeedMove} {s : List Task} {k : Nat}
    {id : MachineId} {step : RefreshMove}
    (hc : f.Causes move id.manager (.step id.product step)) {g : Feed}
    (hg : g.machine? id = f.machine? id)
    (h : Proceeds (f.Drives move) s k g.tasks g.nextTask) :
    Proceeds (f.Drives move) s k (g.stepMachine id step).tasks
      (g.stepMachine id step).nextTask := by
  unfold stepMachine
  split
  · exact h
  · rename_i r hr
    exact proceeds_foldl_perform id _ (fun e he w hw => .effect hc (hg ▸ hr) he hw) _ h

/-- **The tasks after a move.** They are those before it, changed as the move drives them. -/
theorem tasks_apply (f : Feed) (move : FeedMove) :
    Proceeds (f.Drives move) f.tasks f.nextTask (f.apply move).tasks (f.apply move).nextTask := by
  have h := f.step move
  generalize f.apply move = g at h
  cases h with
  | idle | released | cleared | requested => exact .refl
  | @held radarId =>
    obtain ⟨_, _, _, _, h⟩ := f.manager_eq radarId
    rw [h]
    exact .refl
  | started => exact .start .refl .load
  | @found n path request r log _ =>
    obtain ⟨_, _, h⟩ := complete_eq { f with log := log } request (some r)
    rw [h]
    exact .refl
  | @dropped n product time request log _ =>
    obtain ⟨_, h⟩ := dropRequest_eq { f with log := log } request
    rw [h]
    exact .refl
  | @grids n =>
    obtain ⟨_, _, h⟩ := f.computeGrids_eq n
    rw [h]
    exact .refl
  | volumes => exact proceeds_stepMachine .volumes rfl .refl
  | @machine n product =>
    obtain ⟨_, _, h⟩ := f.ensureMachine_eq n product
    rw [h]
    exact .refl
  | product ho => exact proceeds_stepMachine (.product ho) rfl .refl
  | updated => exact .start .refl .products
  | entered log hl he => exact .goOn .refl (.advances hl (.enters he))
  | @routed id l bytes file remarks log hl hp =>
    obtain ⟨_, _, _, _, h⟩ := f.manager_eq (Ascii.upper file.radarId)
    rw [h]
    exact .goOn .refl (.advances hl (.routed hp))
  | stored log hl hp => exact .goOn .refl (.advances hl (.stored hp))
  | @answered id l result hl hp =>
    obtain ⟨_, _, h⟩ := f.complete_eq l.request result
    rw [h]
    exact .finish .refl (.answered hl hp)
  | gone hw hn => exact .finish .refl (.refused hw fun r hr => by rw [hn] at hr; cases hr)
  | begun hw hr hf he =>
    exact (proceeds_stepMachine (g := f) (.begins hw) rfl .refl).goOn (.begun hw hr hf he)
  | refused hw hr hf he =>
    have hp := proceeds_stepMachine (g := f) (.begins hw) rfl .refl
    refine hp.finish (.refused hw fun s hs => ?_)
    rw [hr] at hs
    exact Option.some.inj hs ▸ ⟨hf, he⟩
  | ended hw => exact proceeds_stepMachine (.ends hw) rfl (.finish .refl (.ended hw))
  | timed hw => exact proceeds_stepMachine (.timer hw) rfl (.finish .refl (.timer hw))
  | @asked id n hw =>
    obtain ⟨_, _, h⟩ := f.ensureMachine_eq n f.settings.defaultLevel3Product
    rw [h]
    exact .goOn .refl (.asked hw)
  | listed log hw => exact .finish .refl (.listed hw)

/-! ## Loads -/

section
variable {f : Feed}

theorem load?_eq_some_iff {id : Nat} {l : Load} :
    f.load? id = some l ↔ f.work? id = some (.load l) := by
  unfold load?
  split
  · rename_i hw
    simp [hw]
  · rename_i hw
    exact ⟨nofun, fun h => absurd h (hw l)⟩

theorem exists_task_of_load? {id : Nat} {l : Load} (h : f.load? id = some l) :
    ∃ t ∈ f.tasks, t.id = id ∧ t.work = .load l := by
  obtain ⟨t, ht, hw⟩ := Option.map_eq_some_iff.1 (load?_eq_some_iff.1 h)
  exact ⟨t, List.mem_of_find?_eq_some ht, by simpa using List.find?_some ht, hw⟩

theorem Drives.starter {move : FeedMove} {l : Load} (h : f.Drives move (.start (.load l))) :
    ∃ n source request, move = .load n source request ∧ l = ⟨n, source, request, .waiting⟩ := by
  generalize hm : TaskMove.start (.load l) = x at h
  cases h with
  | load => cases hm; exact ⟨_, _, _, rfl, rfl⟩
  | effect _ _ _ he =>
    cases hm
    unfold RefreshEffect.work? at he
    split at he <;> cases he
  | _ => cases hm

theorem Drives.goesOn {move : FeedMove} {id : Nat} {l : Load}
    (h : f.Drives move (.goOn id (.load l))) :
    ∃ k phase, f.load? id = some k ∧ f.Advances move id k phase ∧
      l = { k with phase := phase } := by
  cases h with
  | advances hk ha => exact ⟨_, _, hk, ha, rfl⟩

/-- When a load turns to the manager that it stores a record with, a file has been decoded. -/
theorem Advances.initializing {move : FeedMove} {id : Nat} {l : Load} {r : Record} {owner : Nat}
    (h : f.Advances move id l (.initializing r owner)) :
    ∃ bytes file remarks, l.phase = .decoding bytes ∧ move = .decoded id (.file file) remarks ∧
      r = .ofFile f.nextSerial file ∧ owner = (f.manager (Ascii.upper file.radarId)).2 := by
  cases h with
  | enters he => cases he
  | routed hp => exact ⟨_, _, _, hp, rfl, rfl, rfl⟩

theorem Advances.of_initializing {move : FeedMove} {id : Nat} {l : Load} {phase : LoadPhase}
    {r : Record} {owner : Nat} (h : f.Advances move id l phase)
    (hp : l.phase = .initializing r owner) : phase = .answering (some (f.stored owner r)) := by
  cases h with
  | enters he =>
    cases he with
    | atTime h | unknown h | atKey h | fetches h | indexed h | reads h | streamed h | broken h =>
      cases h.waiting.symm.trans hp
    | fetched h | missing h | read h | unreadable h | undecoded h => cases h.symm.trans hp
  | routed h => cases h.symm.trans hp
  | stored h => cases h.symm.trans hp; rfl

/-- A load that has a result does not go on. -/
theorem Advances.unanswered {move : FeedMove} {id : Nat} {l : Load} {phase : LoadPhase}
    (h : f.Advances move id l phase) (result : Option Record) : l.phase ≠ .answering result := by
  intro hp
  cases h with
  | enters he => exact he.unanswered result hp
  | routed h | stored h => rw [hp] at h; cases h

theorem load?_lt (hf : ∀ t ∈ f.tasks, t.id < f.nextTask) {id : Nat} {l : Load}
    (hl : f.load? id = some l) : id < f.nextTask := by
  obtain ⟨t, ht, rfl, -⟩ := exists_task_of_load? hl
  exact hf t ht

/-- What becomes of a load: it stays, or goes on, or has answered. -/
theorem load?_apply (hf : ∀ t ∈ f.tasks, t.id < f.nextTask) {id : Nat} {l : Load}
    (hl : f.load? id = some l) (move : FeedMove) :
    (f.apply move).load? id = some l ∨
      (∃ phase, f.Advances move id l phase ∧
        (f.apply move).load? id = some { l with phase := phase }) ∨
      (move = .answer id ∧ (∃ result, l.phase = .answering result) ∧
        (f.apply move).load? id = none) := by
  have hw := load?_eq_some_iff.1 hl
  rcases (tasks_apply f move).work hf (load?_lt hf hl) with h | ⟨w, hd, h⟩ | ⟨hd, h⟩
  · exact .inl (load?_eq_some_iff.2 (h.trans hw))
  · cases w with
    | load k =>
      obtain ⟨l', phase, hl', ha, rfl⟩ := hd.goesOn
      cases Option.some.inj (hl.symm.trans hl')
      exact .inr (.inl ⟨phase, ha, load?_eq_some_iff.2 h⟩)
    | timer => cases hd
    | cycle => cases hd with | begun h' => rw [hw] at h'; cases h'
    | products => cases hd with | asked h' => rw [hw] at h'; cases h'
  · have hn : (f.apply move).load? id = none := by
      unfold load?
      rw [show (f.apply move).work? id = none from h]
    cases hd with
    | answered hk hp =>
      cases Option.some.inj (hl.symm.trans hk)
      exact .inr (.inr ⟨rfl, ⟨_, hp⟩, hn⟩)
    | listed h' | refused h' | ended h' | timer h' => rw [hw] at h'; cases h'

/-- Where a load comes from: it was there, or has gone on, or is new. -/
theorem load?_of_apply (hf : ∀ t ∈ f.tasks, t.id < f.nextTask) {move : FeedMove} {id : Nat}
    {k : Load} (hk : (f.apply move).load? id = some k) :
    f.load? id = some k ∨
      (∃ l phase, f.load? id = some l ∧ f.Advances move id l phase ∧
        k = { l with phase := phase }) ∨
      (f.nextTask ≤ id ∧ ∃ n source request, move = .load n source request ∧
        k = ⟨n, source, request, .waiting⟩) := by
  have hw := load?_eq_some_iff.1 hk
  by_cases hid : id < f.nextTask
  · rcases (tasks_apply f move).work hf hid with h | ⟨w, hd, h⟩ | ⟨-, h⟩
    · exact .inl (load?_eq_some_iff.2 (h.symm.trans hw))
    · cases Option.some.inj (h.symm.trans hw)
      exact .inr (.inl hd.goesOn)
    · cases h.symm.trans hw
  · right
    right
    obtain ⟨t, ht, rfl, ht'⟩ := exists_task_of_load? hk
    rcases (tasks_apply f move).mem ht with ht | hd | hd
    · exact absurd (hf t ht) hid
    · rw [ht'] at hd
      exact ⟨Nat.le_of_not_lt hid, hd.starter⟩
    · rw [ht'] at hd
      obtain ⟨l, -, hl, -⟩ := hd.goesOn
      exact absurd (load?_lt hf hl) hid

theorem load?_sweep (f : Feed) (id : Nat) : f.sweep.load? id = f.load? id := by
  unfold load? work?
  rw [tasks_sweep]

end

/-! ## Cycles and timers -/

/-- A cycle asks only if its machine is enabled and no other one has its turn. -/
theorem Drives.asks {f : Feed} {move : FeedMove} {t : Task} {machine : MachineId}
    (h : f.Drives move (.start t.work) ∨ f.Drives move (.goOn t.id t.work))
    (hw : t.work = .cycle machine true) :
    ∃ r, f.machine? machine = some r ∧ r.inFlight = false ∧ r.enabled = true := by
  rw [hw] at h
  rcases h with h | h
  · cases h with
    | effect _ _ _ he =>
      unfold RefreshEffect.work? at he
      split at he <;> cases he
  · cases h with
    | begun _ hr hf he => exact ⟨_, hr, hf, he⟩

theorem Drives.arms {f : Feed} {move : FeedMove} {t : Task} {machine : MachineId} {token : Nat}
    (h : f.Drives move (.start t.work) ∨ f.Drives move (.goOn t.id t.work))
    (hw : t.work = .timer machine token) :
    ∃ r step, f.machine? machine = some r ∧
      f.Causes move machine.manager (.step machine.product step) ∧
      .timer token ∈ (r.step step).2 := by
  rw [hw] at h
  rcases h with h | h
  · cases h with
    | effect hc hr hx he =>
      unfold RefreshEffect.work? at he
      split at he <;> cases he
      exact ⟨_, _, hr, hc, hx⟩
  · cases h

end Feed

end RadarFeed
