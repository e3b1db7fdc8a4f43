import RadarFeed.Proofs.Feed.Step

/-!
What a move does to what managers share: the sites, the settings, the registry, the holders, the
index of files and the news of created managers. `sharedAfter` says it for each move
(`shared_apply`); the end of managers changes none of it.
-/

namespace RadarFeed

/-- What the managers of a feed share. -/
structure Shared where
  sites : SiteTable
  settings : Settings
  registry : Keyed String Nat
  holders : List Nat
  files : FileIndex Record
  created : Channel String

namespace Feed

/-- What the managers of a feed share. -/
def shared (f : Feed) : Shared :=
  ⟨f.sites, f.settings, f.registry, f.holders, f.files, f.created⟩

/-- What the managers share once the manager of a site, in capitals, is wanted. -/
def sharedWith (f : Feed) (radarId : String) : Shared :=
  if (f.living? radarId).isSome then f.shared
  else
    { f.shared with
      registry := f.registry.set radarId f.managers.length
      created := f.created.send radarId }

/-- What the managers share after a move. -/
def sharedAfter (f : Feed) : FeedMove → Shared
  | .hold radarId =>
    { f.sharedWith (Ascii.upper radarId) with holders := (f.manager radarId).2 :: f.holders }
  | .release n => { f.shared with holders := f.holders.erase n }
  | .cleanup => { f.shared with registry := .empty, files := .empty }
  | .decoded id (.file file) _ =>
    match (f.load? id).map Load.phase with
    | some (.decoding _) => f.sharedWith (Ascii.upper (Ascii.upper file.radarId))
    | _ => f.shared
  | .gridsReady id =>
    match f.load? id with
    | some ⟨_, source, _, .initializing r owner⟩ =>
      { f.shared with files := f.indexAfter source (f.stored owner r) }
    | _ => f.shared
  | _ => f.shared

theorem holders_sharedWith (f : Feed) (radarId : String) :
    (f.sharedWith radarId).holders = f.holders := by
  unfold sharedWith
  split <;> rfl

theorem files_sharedWith (f : Feed) (radarId : String) :
    (f.sharedWith radarId).files = f.files := by
  unfold sharedWith
  split <;> rfl

/-- A file that has been decoded may bring a manager about, and nothing else that is shared. -/
theorem sharedAfter_decoded (f : Feed) (id : Nat) (outcome : DecodeOutcome)
    (remarks : List LogLine) :
    f.sharedAfter (.decoded id outcome remarks) = f.shared ∨
      ∃ radarId, f.sharedAfter (.decoded id outcome remarks) = f.sharedWith radarId := by
  cases outcome with
  | file file =>
    simp only [sharedAfter]
    split
    · exact .inr ⟨_, rfl⟩
    · exact .inl rfl
  | _ => exact .inl rfl

theorem shared_manager (f : Feed) (radarId : String) :
    (f.manager radarId).1.shared = f.sharedWith (Ascii.upper radarId) := by
  unfold manager sharedWith
  dsimp only
  cases f.living? (Ascii.upper radarId) with
  | some n => rfl
  | none =>
    obtain ⟨log, h⟩ := f.create_eq (Ascii.upper radarId)
    simp only [h]
    rfl

theorem shared_stepMachine (f : Feed) (id : MachineId) (move : RefreshMove) :
    (f.stepMachine id move).shared = f.shared := by
  obtain ⟨_, _, _, _, h⟩ := f.stepMachine_eq id move
  rw [h]
  rfl

theorem Enters.sharedAfter_eq {f : Feed} {move : FeedMove} {id : Nat} {l : Load}
    {phase : LoadPhase} (h : f.Enters move id l phase) : f.sharedAfter move = f.shared := by
  cases h with
  | undecoded _ hn =>
    rename_i outcome _ _
    cases outcome with
    | file file => exact absurd rfl (hn file)
    | _ => rfl
  | _ => rfl

theorem Idles.sharedAfter_eq {f : Feed} {move : FeedMove} (h : f.Idles move) :
    f.sharedAfter move = f.shared := by
  cases h with
  | @decoded id outcome _ hn =>
    cases outcome with
    | file file =>
      simp only [sharedAfter]
      split
      · rename_i bytes hp
        obtain ⟨l, hl, hp⟩ := Option.map_eq_some_iff.1 hp
        exact absurd hp (hn l hl bytes)
      · rfl
    | _ => rfl
  | gridsReady hn =>
    simp only [sharedAfter]
    split
    · rename_i hl
      exact absurd rfl (hn _ hl _ _)
    · rfl
  | _ => rfl

/-- **What the managers share after a move.** -/
theorem shared_apply (f : Feed) (move : FeedMove) :
    (f.apply move).shared = f.sharedAfter move := by
  have h := f.step move
  generalize f.apply move = g at h
  cases h with
  | idle log hi => exact hi.sharedAfter_eq.symm
  | @held radarId =>
    simp only [sharedAfter, ← shared_manager]
    rfl
  | released | cleared | requested | started | updated | gone | listed => rfl
  | @found n path request r log _ =>
    obtain ⟨_, _, h⟩ := complete_eq { f with log := log } request (some r)
    rw [h]
    rfl
  | @dropped n product time request log _ =>
    obtain ⟨_, h⟩ := dropRequest_eq { f with log := log } request
    rw [h]
    rfl
  | @grids n =>
    obtain ⟨_, _, h⟩ := f.computeGrids_eq n
    rw [h]
    rfl
  | volumes | product => exact shared_stepMachine f _ _
  | @machine n product =>
    obtain ⟨_, _, h⟩ := f.ensureMachine_eq n product
    rw [h]
    rfl
  | entered log hl he => exact he.sharedAfter_eq.symm
  | @routed id l bytes file remarks log hl hp =>
    simp only [sharedAfter, hl, Option.map_some, hp]
    exact shared_manager f (Ascii.upper file.radarId)
  | @stored id l r owner log hl hp =>
    obtain ⟨n, source, request, phase⟩ := l
    subst hp
    simp only [sharedAfter, hl]
    rfl
  | @answered id l result hl hp =>
    obtain ⟨_, _, h⟩ := f.complete_eq l.request result
    rw [h]
    rfl
  | begun | refused => exact shared_stepMachine f _ _
  | @ended id machine answer _ => exact shared_stepMachine (f.finish id) _ _
  | @timed id machine token how _ => exact shared_stepMachine (f.finish id) _ _
  | @asked id n _ =>
    obtain ⟨_, _, h⟩ := f.ensureMachine_eq n f.settings.defaultLevel3Product
    rw [h]
    rfl

theorem holders_apply (f : Feed) (move : FeedMove) {n : Nat} (hn : n ∈ (f.apply move).holders) :
    n ∈ f.holders ∨ ∃ radarId, move = .hold radarId ∧ n = (f.manager radarId).2 := by
  rw [show (f.apply move).holders = (f.sharedAfter move).holders from
    congrArg Shared.holders (f.shared_apply move)] at hn
  cases move with
  | hold radarId =>
    rcases List.mem_cons.1 hn with rfl | hn
    · exact .inr ⟨radarId, rfl, rfl⟩
    · exact .inl hn
  | release k => exact .inl (List.mem_of_mem_erase hn)
  | decoded id outcome remarks =>
    rcases f.sharedAfter_decoded id outcome remarks with h | ⟨radarId, h⟩ <;> rw [h] at hn
    · exact .inl hn
    · exact .inl (f.holders_sharedWith radarId ▸ hn)
  | gridsReady id =>
    simp only [sharedAfter] at hn
    split at hn <;> exact .inl hn
  | _ => exact .inl hn

/-- The index of files changes when a file has been loaded. -/
theorem files_apply {f : Feed} {move : FeedMove} (hc : move ≠ .cleanup) :
    (f.apply move).files = f.files ∨ ∃ id l p r owner, move = .gridsReady id ∧
      f.load? id = some l ∧ l.source = .file p ∧ l.phase = .initializing r owner ∧
      (f.apply move).files = f.files.insert p (f.stored owner r) := by
  rw [show (f.apply move).files = (f.sharedAfter move).files from
    congrArg Shared.files (f.shared_apply move)]
  cases move with
  | cleanup => exact absurd rfl hc
  | hold radarId => exact .inl (f.files_sharedWith _)
  | decoded id outcome remarks =>
    left
    rcases f.sharedAfter_decoded id outcome remarks with h | ⟨radarId, h⟩ <;> rw [h]
    · rfl
    · exact f.files_sharedWith radarId
  | gridsReady id =>
    simp only [sharedAfter]
    split
    · rename_i source _ r owner hl
      cases source with
      | file p => exact .inr ⟨id, _, p, r, owner, rfl, hl, rfl, rfl, rfl⟩
      | _ => exact .inl rfl
    · exact .inl rfl
  | _ => exact .inl rfl

end Feed

end RadarFeed
