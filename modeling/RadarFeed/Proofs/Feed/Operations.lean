import RadarFeed.Feed.Move

/-!
Which parts of a feed an operation can change. Whatever an equation here does not name is as it was.
-/

namespace RadarFeed

namespace Feed

theorem complete_eq (f : Feed) (request : Option Nat) (result : Option Record) :
    ∃ requests called,
      f.complete request result = { f with requests := requests, called := called } := by
  unfold complete
  split
  · exact ⟨f.requests, f.called, rfl⟩
  · exact ⟨_, _, rfl⟩

theorem dropRequest_eq (f : Feed) (request : Option Nat) :
    ∃ requests, f.dropRequest request = { f with requests := requests } := by
  unfold dropRequest
  split
  · exact ⟨f.requests, rfl⟩
  · exact ⟨_, rfl⟩

theorem sayOf_eq (f : Feed) (id : MachineId) (level : LogLevel) (text : String) :
    ∃ log, f.sayOf id level text = { f with log := log } := by
  unfold sayOf
  split
  · exact ⟨_, rfl⟩
  · exact ⟨f.log, rfl⟩

theorem perform_eq (f : Feed) (id : MachineId) (e : RefreshEffect) :
    ∃ managers tasks nextTask log, f.perform id e =
      { f with managers := managers, tasks := tasks, nextTask := nextTask, log := log } := by
  cases e <;> exact ⟨_, _, _, _, rfl⟩

theorem foldl_perform_eq (f : Feed) (id : MachineId) (es : List RefreshEffect) :
    ∃ managers tasks nextTask log, es.foldl (fun f e => f.perform id e) f =
      { f with managers := managers, tasks := tasks, nextTask := nextTask, log := log } := by
  induction es generalizing f with
  | nil => exact ⟨f.managers, f.tasks, f.nextTask, f.log, rfl⟩
  | cons e es ih =>
    obtain ⟨_, _, _, _, h⟩ := f.perform_eq id e
    rw [List.foldl_cons, h]
    exact ih _

theorem stepMachine_eq (f : Feed) (id : MachineId) (move : RefreshMove) :
    ∃ managers tasks nextTask log, f.stepMachine id move =
      { f with managers := managers, tasks := tasks, nextTask := nextTask, log := log } := by
  unfold stepMachine
  split
  · exact ⟨f.managers, f.tasks, f.nextTask, f.log, rfl⟩
  · exact foldl_perform_eq _ id _

theorem ensureMachine_eq (f : Feed) (n : Nat) (product : String) :
    ∃ managers log, f.ensureMachine n product = { f with managers := managers, log := log } := by
  unfold ensureMachine
  split
  · exact ⟨f.managers, f.log, rfl⟩
  · exact ⟨_, _, rfl⟩

theorem computeGrids_eq (f : Feed) (n : Nat) :
    ∃ managers log, f.computeGrids n = { f with managers := managers, log := log } := by
  unfold computeGrids
  split
  · exact ⟨f.managers, f.log, rfl⟩
  · split
    · exact ⟨f.managers, f.log, rfl⟩
    · exact ⟨_, _, rfl⟩

theorem store_eq (f : Feed) (owner : Nat) (r : Record) :
    ∃ log, f.store owner r =
      ({ f with managers := f.managers.modify owner (Manager.store · r), log := log },
        ((f.manager? owner).map fun m => m.stored r).getD r) := by
  unfold store
  dsimp only
  split
  · exact ⟨f.log, rfl⟩
  · exact ⟨_, rfl⟩

theorem create_eq (f : Feed) (radarId : String) : ∃ log, f.create radarId =
    ({ f with
        managers := f.managers ++
          [.new f.settings radarId ((f.sites.find? radarId).getD Site.unknown)]
        registry := f.registry.set radarId f.managers.length
        created := f.created.send radarId
        log := log }, f.managers.length) := by
  unfold create
  cases f.sites.find? radarId with
  | none => exact ⟨_, rfl⟩
  | some site => exact ⟨_, rfl⟩

theorem manager_eq (f : Feed) (radarId : String) : ∃ managers registry created log,
    (f.manager radarId).1 = { f with
      managers := managers, registry := registry, created := created, log := log } := by
  unfold manager
  dsimp only
  split
  · exact ⟨f.managers, f.registry, f.created, f.log, rfl⟩
  · obtain ⟨log, h⟩ := f.create_eq (Ascii.upper radarId)
    rw [h]
    exact ⟨_, _, _, _, rfl⟩

theorem manager_with (f : Feed) (nextSerial : Nat) (log : List LogLine) (radarId : String) :
    ∃ log', ({ f with nextSerial := nextSerial, log := log } : Feed).manager radarId =
      ({ (f.manager radarId).1 with nextSerial := nextSerial, log := log' },
        (f.manager radarId).2) := by
  have hl : ({ f with nextSerial := nextSerial, log := log } : Feed).living?
      (Ascii.upper radarId) = f.living? (Ascii.upper radarId) := rfl
  unfold manager
  dsimp only
  rw [hl]
  cases f.living? (Ascii.upper radarId) with
  | some n => exact ⟨log, rfl⟩
  | none =>
    obtain ⟨log₁, h₁⟩ := create_eq { f with nextSerial := nextSerial, log := log }
      (Ascii.upper radarId)
    obtain ⟨log₂, h₂⟩ := f.create_eq (Ascii.upper radarId)
    simp only [h₁, h₂]
    exact ⟨log₁, rfl⟩

theorem takeDecoded_eq {f : Feed} {id : Nat} {l : Load} {bytes : List UInt8}
    (hl : f.load? id = some l) (hp : l.phase = .decoding bytes) (file : RadarFile)
    (remarks : List LogLine) :
    ∃ log, f.takeDecoded id (.file file) remarks =
      ({ (f.manager (Ascii.upper file.radarId)).1 with
        nextSerial := f.nextSerial + 1, log := log } : Feed).enter id l
        (.initializing (.ofFile f.nextSerial file)
          (f.manager (Ascii.upper file.radarId)).2) := by
  have hr : ∃ log, f.takeDecoded id (.file file) remarks =
      let g := ({ f with nextSerial := f.nextSerial + 1, log := log } : Feed).manager
        (Ascii.upper file.radarId)
      g.1.enter id l (.initializing (.ofFile f.nextSerial file) g.2) := by
    simp only [takeDecoded, hl, hp, route]
    split
    · exact ⟨_, rfl⟩
    · exact ⟨_, rfl⟩
  obtain ⟨log, h⟩ := hr
  obtain ⟨log', hm⟩ := f.manager_with (f.nextSerial + 1) log (Ascii.upper file.radarId)
  refine ⟨log', ?_⟩
  rw [h, hm]

/-- The index of files after a record has been stored. -/
def indexAfter (f : Feed) (source : LoadSource) (r : Record) : FileIndex Record :=
  match source with
  | .file path => f.files.insert path r
  | _ => f.files

/-- The record that a manager has once a record has been stored with it. -/
def stored (f : Feed) (owner : Nat) (r : Record) : Record :=
  ((f.manager? owner).map fun m => m.stored r).getD r

/-- The grids of a manager do not touch its caches. -/
theorem stored_computeGrids (f : Feed) (n owner : Nat) (r : Record) :
    (f.computeGrids n).stored owner r = f.stored owner r := by
  unfold computeGrids
  split
  · rfl
  · split
    · rfl
    · show ((f.managers.modify n _)[owner]?.map _).getD r = (f.managers[owner]?.map _).getD r
      rw [List.getElem?_modify]
      cases f.managers[owner]? with
      | none => rfl
      | some m =>
        by_cases h : n = owner
        · simp [h]; rfl
        · simp [h]

theorem takeGrids_eq {f : Feed} {id : Nat} {l : Load} {r : Record} {owner : Nat}
    (hl : f.load? id = some l) (hp : l.phase = .initializing r owner) :
    ∃ log, f.takeGrids id =
      ({ f with
        managers := (f.computeGrids owner).managers.modify owner (Manager.store · r)
        files := f.indexAfter l.source (f.stored owner r)
        log := log } : Feed).enter id l (.answering (some (f.stored owner r))) := by
  obtain ⟨log, hs⟩ := (f.computeGrids owner).store_eq owner r
  obtain ⟨managers, log', hg⟩ := f.computeGrids_eq owner
  have hst : (((f.computeGrids owner).manager? owner).map fun m => m.stored r).getD r =
      f.stored owner r := f.stored_computeGrids owner owner r
  rw [hst] at hs
  refine ⟨log, ?_⟩
  simp only [takeGrids, hl, hp, hs]
  cases l.source <;> simp only [hg, indexAfter]

end Feed

end RadarFeed
