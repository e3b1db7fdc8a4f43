import RadarFeed.Proofs.Feed.Ended

/-!
The machines of a feed.

Names of machines that differ in the letter case of a product at most name the same machine
(`machine?_congr`). For every product in capitals a manager has one machine at most, which is created
once and stays (`oneEach_run`, `creations_le_one`). `machine?_stepMachine` and
`machine?_ensureMachine` say which machines there are after a step of one of them, and after one has
been made sure of.
-/

namespace RadarFeed

/-- Two names of one machine: the letter case of a product does not count. -/
def MachineId.Same (a b : MachineId) : Prop :=
  a.manager = b.manager ∧ a.product.map Ascii.upper = b.product.map Ascii.upper

instance (a b : MachineId) : Decidable (a.Same b) :=
  inferInstanceAs (Decidable (_ ∧ _))

namespace Manager

variable {m : Manager}

/-- The machines of products stand under keys in capitals, each under one of its own. -/
structure UniqueKeys (m : Manager) : Prop where
  nodup : m.level3.keys.Nodup
  capitals : ∀ k ∈ m.level3.keys, Ascii.upper k = k

theorem uniqueKeys_new (settings : Settings) (radarId : String) (site : Site) :
    (new settings radarId site).UniqueKeys :=
  ⟨List.nodup_nil, fun k hk => by cases hk⟩

theorem UniqueKeys.set (h : m.UniqueKeys) {key : String} (hk : Ascii.upper key = key)
    (r : Refresher) : ({ m with level3 := m.level3.set key r } : Manager).UniqueKeys := by
  refine ⟨Keyed.nodup_keys_set h.nodup key r, fun k hmem => ?_⟩
  have hmem : k ∈ (m.level3.set key r).keys := hmem
  rw [Keyed.keys_set] at hmem
  split at hmem
  · exact h.capitals k hmem
  · rcases List.mem_append.1 hmem with hmem | hmem
    · exact h.capitals k hmem
    · rw [List.mem_singleton.1 hmem, hk]

theorem UniqueKeys.change (h : m.UniqueKeys) (retry : Duration) (c : ManagerMove) :
    (m.change retry c).UniqueKeys := by
  cases c with
  | step product move =>
    simp only [Manager.change]
    split
    · exact h
    · cases product with
      | none => exact ⟨h.nodup, h.capitals⟩
      | some p =>
        have hs := h.set (Ascii.upper_upper p) (Refresher.step ‹Refresher› move).1
        exact ⟨hs.nodup, hs.capitals⟩
  | ensureMachine product =>
    simp only [Manager.change, Manager.ensureMachine, Keyed.ensure]
    split
    · exact ⟨h.nodup, h.capitals⟩
    · exact h.set (Ascii.upper_upper product) _
  | store x =>
    have hx : (m.store x).level3 = m.level3 := by
      unfold store
      split <;> rfl
    show (m.store x).UniqueKeys
    exact ⟨hx ▸ h.nodup, hx ▸ h.capitals⟩
  | close =>
    have hkeys : m.disableAll.level3.keys = m.level3.keys := by
      show (m.level3.entries.map _).map Prod.fst = m.level3.entries.map Prod.fst
      rw [List.map_map]
      rfl
    exact ⟨hkeys.symm ▸ h.nodup, hkeys.symm ▸ h.capitals⟩
  | ensureCache | computeGrids | requestProducts | listProducts => exact ⟨h.nodup, h.capitals⟩

/-- The machines after a step of one of them. -/
theorem machine?_change_step (m : Manager) (retry : Duration) (p q : Option String)
    (move : RefreshMove) :
    (m.change retry (.step p move)).machine? q =
      if q.map Ascii.upper = p.map Ascii.upper then (m.machine? q).map fun r => (r.step move).1
      else m.machine? q := by
  cases hp : m.machine? p with
  | none =>
    simp only [change, hp]
    by_cases h : q.map Ascii.upper = p.map Ascii.upper
    · rw [if_pos h, machine?_congr h, hp]
      rfl
    · rw [if_neg h]
  | some r =>
    simp only [change, hp]
    show (m.setMachine p (r.step move).1).machine? q = _
    rw [machine?_setMachine]
    by_cases h : q.map Ascii.upper = p.map Ascii.upper
    · rw [if_pos h, if_pos h, machine?_congr h, hp]
      rfl
    · rw [if_neg h, if_neg h]

end Manager

namespace Feed

variable {f : Feed} {id : MachineId}

theorem machine?_congr {a b : MachineId} (h : a.Same b) : f.machine? a = f.machine? b := by
  obtain ⟨hn, hp⟩ := h
  show (f.manager? a.manager).bind (Manager.machine? · a.product) =
    (f.manager? b.manager).bind (Manager.machine? · b.product)
  rw [hn]
  cases f.manager? b.manager with
  | none => rfl
  | some m => exact Manager.machine?_congr hp

theorem machine?_stepMachine (f : Feed) (id other : MachineId) (step : RefreshMove) :
    (f.stepMachine id step).machine? other =
      if other.Same id then (f.machine? other).map fun r => (r.step step).1
      else f.machine? other := by
  show ((f.stepMachine id step).managers[other.manager]?).bind _ = _
  have hother : f.machine? other =
      (f.managers[other.manager]?).bind (Manager.machine? · other.product) := rfl
  rw [managers_stepMachine, List.getElem?_modify, hother]
  cases f.managers[other.manager]? with
  | none => simp
  | some m =>
    by_cases hn : id.manager = other.manager
    · have hsame : other.Same id ↔ other.product.map Ascii.upper = id.product.map Ascii.upper :=
        and_iff_right hn.symm
      simp only [hn, if_pos, hsame]
      exact Manager.machine?_change_step m f.retry id.product other.product step
    · have hsame : ¬ other.Same id := fun h => hn h.1.symm
      simp [hn, hsame]

theorem machine?_ensureMachine (f : Feed) (n : Nat) (product : String) (id : MachineId) :
    (f.ensureMachine n product).machine? id =
      (f.machine? id).or (if id.Same ⟨n, some product⟩ then
        (f.manager? n).map fun m => .new m.radarId (some (Ascii.upper product)) f.retry
        else none) := by
  obtain ⟨k, q⟩ := id
  show ((f.ensureMachine n product).managers[k]?).bind (Manager.machine? · q) =
    ((f.managers[k]?).bind (Manager.machine? · q)).or
      (if (⟨k, q⟩ : MachineId).Same ⟨n, some product⟩ then
        (f.managers[n]?).map fun m => .new m.radarId (some (Ascii.upper product)) f.retry
        else none)
  rw [managers_ensureMachine, List.getElem?_modify]
  by_cases hk : n = k
  · subst hk
    have hsame : (⟨n, q⟩ : MachineId).Same ⟨n, some product⟩ ↔
        q.map Ascii.upper = some (Ascii.upper product) := and_iff_right rfl
    cases f.managers[n]? with
    | none => simp
    | some m =>
      simp only [if_pos]
      refine (m.machine?_ensureMachine f.retry product q).trans ?_
      by_cases hq : q.map Ascii.upper = some (Ascii.upper product) <;> simp [hsame, hq]
  · have hsame : ¬ (⟨k, q⟩ : MachineId).Same ⟨n, some product⟩ := fun h => hk h.1.symm
    simp [hsame, hk]

/-! ## What a move keeps -/

theorem settings_apply (f : Feed) (move : FeedMove) : (f.apply move).settings = f.settings := by
  have h := f.step move
  generalize f.apply move = g at h
  cases h with
  | @held radarId =>
    obtain ⟨_, _, _, _, h⟩ := f.manager_eq radarId
    rw [h]
  | @found n path request r log _ =>
    obtain ⟨_, _, h⟩ := complete_eq { f with log := log } request (some r)
    rw [h]
  | @dropped n product time request log _ =>
    obtain ⟨_, h⟩ := dropRequest_eq { f with log := log } request
    rw [h]
  | @grids n =>
    obtain ⟨_, _, h⟩ := f.computeGrids_eq n
    rw [h]
  | @volumes n on =>
    obtain ⟨_, _, _, _, h⟩ := f.stepMachine_eq ⟨n, none⟩ (switch on)
    rw [h]
  | @product n product on offered _ =>
    obtain ⟨_, _, _, _, h⟩ := f.stepMachine_eq ⟨n, some (Ascii.upper product)⟩ (switch on)
    rw [h]
  | @begun id machine r _ _ _ _ =>
    obtain ⟨_, _, _, _, h⟩ := f.stepMachine_eq machine .cycleBegins
    rw [h]
    rfl
  | @refused id machine r _ _ _ _ =>
    obtain ⟨_, _, _, _, h⟩ := f.stepMachine_eq machine .cycleBegins
    rw [h]
    rfl
  | @machine n product =>
    obtain ⟨_, _, h⟩ := f.ensureMachine_eq n product
    rw [h]
  | @routed id l bytes file remarks log hl hp =>
    obtain ⟨_, _, _, _, h⟩ := f.manager_eq (Ascii.upper file.radarId)
    rw [h]
    rfl
  | @answered id l result hl hp =>
    obtain ⟨_, _, h⟩ := f.complete_eq l.request result
    rw [h]
    rfl
  | @ended id machine answer _ =>
    obtain ⟨_, _, _, _, h⟩ := (f.finish id).stepMachine_eq machine (.cycleEnds answer)
    rw [h]
    rfl
  | @timed id machine token how _ =>
    obtain ⟨_, _, _, _, h⟩ := (f.finish id).stepMachine_eq machine (.timerEnds token how)
    rw [h]
    rfl
  | @asked id n _ =>
    obtain ⟨_, _, h⟩ := f.ensureMachine_eq n f.settings.defaultLevel3Product
    rw [h]
    rfl
  | _ => rfl

theorem settings_move (f : Feed) (move : FeedMove) : (f.move move).settings = f.settings := by
  unfold Feed.move
  split
  · obtain ⟨_, _, h, -⟩ := (f.apply move).sweep_eq
    rw [h]
    exact settings_apply f move
  · rfl

theorem retry_move (f : Feed) (move : FeedMove) : (f.move move).retry = f.retry := by
  rw [retry, retry, settings_move]

/-- What new managers have and all changes keep, all managers have after a move. -/
theorem managers_move {I : Nat → Manager → Prop} (move : FeedMove)
    (hnew : ∀ n radarId site, I n (.new f.settings radarId site))
    (hchange : ∀ n m c, (f.Causes move n c ∨ c = .close) → I n m → I n (m.change f.retry c))
    (hf : ∀ n m, f.manager? n = some m → I n m) :
    ∀ n m, (f.move move).manager? n = some m → I n m := by
  intro n m hm
  unfold Feed.move at hm
  split at hm
  · rw [manager?_sweep] at hm
    obtain ⟨m', hm', rfl⟩ := Option.map_eq_some_iff.1 hm
    have happly : I n m' := (managers_apply f move).preserves
      (fun n radarId site _ _ => hnew n radarId site) (fun n m c hc => hchange n m c (.inl hc)) hf
      n m' hm'
    have hretry : (f.apply move).retry = f.retry := by rw [retry, retry, settings_apply]
    rw [swept, hretry]
    split
    · exact hchange n m' .close (.inr rfl) happly
    · exact happly
  · exact hf n m hm

/-! ## One machine for every product -/

/-- The machines are those of the managers, one for every product in capitals. -/
structure OneEach (f : Feed) : Prop where
  shared : ∀ a b, MachineId.Same a b → f.machine? a = f.machine? b
  keys : ∀ n m, f.manager? n = some m → m.UniqueKeys

theorem oneEach_run (sites : SiteTable) (settings : Settings) (moves : List FeedMove) :
    ((new sites settings).run moves).OneEach := by
  refine ⟨fun a b h => machine?_congr h, ?_⟩
  have hnew : ∀ n m, (new sites settings).manager? n = some m → m.UniqueKeys := by
    intro n m hm
    cases hm
  refine run_of_move (I := fun g => ∀ n m, g.manager? n = some m → m.UniqueKeys) hnew ?_
  intro g move _ hg
  exact managers_move (I := fun _ m => m.UniqueKeys) move
    (fun n radarId site => Manager.uniqueKeys_new _ radarId site)
    (fun n m c _ hm => hm.change _ c) hg

/-- How many times a machine is created in a run. -/
def creations (id : MachineId) (f : Feed) : List FeedMove → Nat
  | [] => 0
  | move :: moves =>
    ((f.machine? id).isNone && ((f.move move).machine? id).isSome).toNat +
      creations id (f.move move) moves

theorem creations_of_some {r : Refresher} (hr : f.machine? id = some r) (moves : List FeedMove) :
    creations id f moves = 0 := by
  induction moves generalizing f r with
  | nil => rfl
  | cons move moves ih =>
    obtain ⟨steps, hs⟩ := machine?_move hr move
    rw [creations, hr, ih hs]
    rfl

theorem creations_le_one (id : MachineId) (f : Feed) (moves : List FeedMove) :
    creations id f moves ≤ 1 := by
  induction moves generalizing f with
  | nil => exact Nat.zero_le 1
  | cons move moves ih =>
    rw [creations]
    cases hr : (f.move move).machine? id with
    | none =>
      rw [Option.isSome_none, Bool.and_false, Bool.toNat_false, Nat.zero_add]
      exact ih _
    | some r =>
      rw [creations_of_some hr, Nat.add_zero]
      exact Bool.toNat_le _

end Feed

end RadarFeed
