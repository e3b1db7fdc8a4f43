import RadarFeed.Proofs.Feed.Ended
import RadarFeed.Proofs.Feed.Registry

/-!
One manager for each site.

Clearing the registry makes it forget the managers that there are, so the law of the registry is
about those created since (`clearedAt`). What it names was created since then, and it names all of
these that live (`Since`): none of two managers of one site is lost sight of while it lives, and who
wants the manager of a site gets that one. All that are ever created are announced, in the order of
their creation (`Announced`), and a manager lives exactly as long as somebody holds it or the work
under way keeps it (`alive_iff`).
-/

namespace RadarFeed

namespace Feed

variable {f : Feed} {k : Nat}

/-- The manager `n` is none of the first `k`, lives, and is that of a site. -/
structure Lives (f : Feed) (k n : Nat) (id : String) : Prop where
  since : k ≤ n
  manager : ∃ m, f.manager? n = some m ∧ m.alive = true ∧ m.radarId = id

/-- The number of managers that there were when the registry was last cleared, if it was `k` before
a move. -/
def clearedBy (f : Feed) (k : Nat) : FeedMove → Nat
  | .cleanup => f.managers.length
  | _ => k

/-- The number of managers that there were when the registry was last cleared, if it was `k` before
the moves. -/
def clearedAt (f : Feed) (k : Nat) : List FeedMove → Nat
  | [] => k
  | move :: moves => (f.move move).clearedAt (f.clearedBy k move) moves

theorem clearedBy_of_ne {move : FeedMove} (hc : move ≠ .cleanup) : f.clearedBy k move = k := by
  cases move with
  | cleanup => exact absurd rfl hc
  | _ => rfl

/-! ## What has been announced -/

/-- The managers that were ever created are announced, by ids in capitals. -/
structure Announced (f : Feed) : Prop where
  sent : f.created.sent = f.managers.map Manager.radarId
  capitals : ∀ id ∈ f.managers.map Manager.radarId, Ascii.upper id = id

theorem Announced.of_bringsNone {g : Feed} (h : f.Announced) (hb : f.BringsNone g) :
    g.Announced := by
  refine ⟨?_, ?_⟩
  · rw [hb.created, hb.managers]
    exact h.sent
  · rw [hb.managers]
    exact h.capitals

theorem Announced.apply (h : f.Announced) (move : FeedMove) : (f.apply move).Announced := by
  rcases f.brings_apply move with ⟨id, hb⟩ | ⟨hb, -⟩
  · refine ⟨?_, ?_⟩
    · rw [hb.created, hb.managers, h.sent]
    · rw [hb.managers]
      intro site hs
      rcases List.mem_append.1 hs with hs | hs
      · exact h.capitals site hs
      · rw [List.mem_singleton.1 hs]
        exact hb.capitals
  · exact h.of_bringsNone hb

theorem bringsNone_sweep (f : Feed) : f.BringsNone f.sweep := by
  obtain ⟨managers, log, he, hm⟩ := f.sweep_eq
  rw [he]
  refine ⟨List.ext_getElem? fun n => ?_, rfl⟩
  show (managers.map Manager.radarId)[n]? = _
  rw [List.getElem?_map, hm, Option.map_map, List.getElem?_map]
  exact Option.map_congr fun m _ => swept_radarId n m

theorem Announced.run (h : f.Announced) (moves : List FeedMove) : (f.run moves).Announced := by
  refine run_of_move h fun g move _ hg => ?_
  unfold Feed.move
  split
  · exact (hg.apply move).of_bringsNone (bringsNone_sweep _)
  · exact hg

/-! ## What the registry names -/

/-- The registry and the managers, of which there were `k` when it was last cleared. -/
structure Since (f : Feed) (k : Nat) : Prop where
  counted : k ≤ f.managers.length
  later : ∀ {id n}, f.registry.get? id = some n → k ≤ n
  registers : ∀ {n}, k ≤ n → f.Registers n
  distinct : f.registry.keys.Nodup

theorem Since.apply (h : f.Since k) {move : FeedMove} (hc : move ≠ .cleanup) :
    (f.apply move).Since k := by
  have registers : ∀ {n}, k ≤ n → (f.apply move).Registers n := fun hn =>
    (h.registers hn).apply hc
  rcases f.brings_apply move with ⟨new, hb⟩ | ⟨hb, hr⟩
  · refine ⟨?_, fun {id n} hn => ?_, registers, ?_⟩
    · rw [hb.length]
      exact Nat.le_succ_of_le h.counted
    · rw [hb.registry] at hn
      by_cases hid : id = new
      · rw [hid, Keyed.get?_set_same] at hn
        rw [← Option.some.inj hn]
        exact h.counted
      · rw [Keyed.get?_set_ne _ hid] at hn
        exact h.later hn
    · rw [hb.registry]
      exact Keyed.nodup_keys_set h.distinct _ _
  · refine ⟨hb.length.symm ▸ h.counted, fun {id n} hn => ?_, registers, ?_⟩
    · rw [hr hc] at hn
      exact h.later hn
    · rw [hr hc]
      exact h.distinct

/-- The registry names nothing once it is cleared. -/
theorem since_cleanup (f : Feed) : (f.apply .cleanup).Since f.managers.length := by
  refine ⟨Nat.le_refl _, fun {id n} hn => ?_, fun {n} hn m hm => ?_, List.nodup_nil⟩
  · cases hn
  · have hlt : n < f.managers.length := (List.getElem?_eq_some_iff.1 hm).1
    omega

theorem Since.sweep (h : f.Since k) : f.sweep.Since k := by
  have registers : ∀ {n}, k ≤ n → f.sweep.Registers n := fun hn => (h.registers hn).sweep
  have counted : k ≤ f.sweep.managers.length := (bringsNone_sweep f).length.symm ▸ h.counted
  obtain ⟨managers, log, he, -⟩ := f.sweep_eq
  rw [he] at registers counted ⊢
  exact ⟨counted, h.later, registers, h.distinct⟩

theorem Since.move (h : f.Since k) (move : FeedMove) :
    (f.move move).Since (f.clearedBy k move) := by
  by_cases hc : move = .cleanup
  · subst hc
    exact (since_cleanup f).sweep
  · rw [clearedBy_of_ne hc]
    unfold Feed.move
    split
    · exact (h.apply hc).sweep
    · exact h

theorem Since.run (h : f.Since k) (moves : List FeedMove) :
    (f.run moves).Since (f.clearedAt k moves) := by
  induction moves generalizing f k with
  | nil => exact h
  | cons move moves ih => exact ih (h.move move)

theorem since_new (sites : SiteTable) (settings : Settings) : (new sites settings).Since 0 := by
  refine ⟨Nat.zero_le _, fun _ => Nat.zero_le _, fun {n} _ m hm => ?_, List.nodup_nil⟩
  simp [new, manager?] at hm

/-- The registry finds exactly the managers that live. -/
theorem Since.living?_eq_some_iff (h : f.Since k) (hn : f.Named) {id : String} {n : Nat} :
    f.living? id = some n ↔ f.Lives k n id := by
  rw [Feed.living?_eq_some_iff]
  constructor
  · rintro ⟨hid, m, hm, hal⟩
    obtain ⟨m', hm', hsite⟩ := hn hid
    cases Option.some.inj (hm.symm.trans hm')
    exact ⟨h.later hid, m, hm, hal, hsite⟩
  · rintro ⟨hk, m, hm, hal, rfl⟩
    exact ⟨h.registers hk m hm hal, m, hm, hal⟩

theorem Since.living?_eq_none_iff (h : f.Since k) (hn : f.Named) {id : String} :
    f.living? id = none ↔ ∀ n, ¬ f.Lives k n id := by
  rw [Option.eq_none_iff_forall_ne_some]
  exact forall_congr' fun n => not_congr (h.living?_eq_some_iff hn)

theorem Since.mem_activeSites (h : f.Since k) (hn : f.Named) {id : String} :
    id ∈ f.activeSites ↔ ∃ n, f.Lives k n id := by
  unfold activeSites
  rw [List.mem_mergeSort, List.mem_filter]
  constructor
  · rintro ⟨-, hl⟩
    obtain ⟨n, hl⟩ := Option.isSome_iff_exists.1 hl
    exact ⟨n, (h.living?_eq_some_iff hn).1 hl⟩
  · rintro ⟨n, hl⟩
    have hl : f.living? id = some n := (h.living?_eq_some_iff hn).2 hl
    have hid : f.registry.get? id = some n := (Feed.living?_eq_some_iff.1 hl).1
    exact ⟨Keyed.mem_keys_of_get? hid, Option.isSome_iff_exists.2 ⟨n, hl⟩⟩

theorem Since.sorted_activeSites (h : f.Since k) : f.activeSites.Pairwise (· < ·) := by
  have hsorted : f.activeSites.Pairwise fun a b => decide (a ≤ b) = true := by
    refine List.pairwise_mergeSort (fun a b c hab hbc => ?_) (fun a b => ?_) _
    · rw [decide_eq_true_eq] at hab hbc ⊢
      exact String.le_trans hab hbc
    · rcases String.le_total a b with hab | hab <;> simp [hab]
  have hdistinct : f.activeSites.Nodup :=
    (List.mergeSort_perm _ _).nodup_iff.2 (h.distinct.filter _)
  refine (hsorted.and hdistinct).imp fun {a b} hab => ?_
  exact Std.lt_of_le_of_ne (of_decide_eq_true hab.1) hab.2

/-! ## Who keeps a manager -/

/-- Updates of products keep managers that live. -/
def Updates (f : Feed) : Prop :=
  ∀ t ∈ f.tasks, ∀ {n asking}, t.work = .products n asking →
    ∃ m, f.manager? n = some m ∧ m.alive = true

theorem Drives.updates {move : FeedMove} {n : Nat} {asking : Bool}
    (h : f.Drives move (.start (.products n asking))) : move = .updateProducts n := by
  generalize hm : TaskMove.start (.products n asking) = x at h
  cases h with
  | products => cases hm; rfl
  | effect _ _ _ he =>
    cases hm
    unfold RefreshEffect.work? at he
    split at he <;> cases he
  | _ => cases hm

theorem Drives.asks_products {move : FeedMove} {id n : Nat} {asking : Bool}
    (h : f.Drives move (.goOn id (.products n asking))) :
    f.work? id = some (.products n false) := by
  cases h with
  | asked hw => exact hw

theorem Updates.apply (h : f.Updates) (hs : f.Sound) {move : FeedMove}
    (ha : f.allows move = true) : (f.apply move).Updates := by
  intro t ht n asking hw
  have lived : ∃ m, f.manager? n = some m ∧ m.alive = true := by
    rcases (tasks_apply f move).mem ht with ht | hd | hd
    · exact h t ht hw
    · rw [hw] at hd
      cases hd.updates
      exact hs.held (List.contains_iff_mem.1 ha)
    · rw [hw] at hd
      obtain ⟨u, hu, hwork⟩ := Option.map_eq_some_iff.1 hd.asks_products
      exact h u (List.mem_of_find?_eq_some hu) hwork
  obtain ⟨m, hm, hal⟩ := lived
  obtain ⟨m', hm', hal', -⟩ := alive_apply hm move
  exact ⟨m', hm', hal'.trans hal⟩

theorem Updates.sweep (h : f.Updates) : f.sweep.Updates := by
  intro t ht n asking hw
  rw [tasks_sweep] at ht
  have hk : t.work.keeps n = true := by simp [hw, Work.keeps]
  rw [manager?_sweep_of_needed (isNeeded_of_keeps ht hk)]
  exact h t ht hw

theorem Updates.run (h : f.Updates) (hs : f.Sound) (moves : List FeedMove) :
    (f.run moves).Updates := by
  refine (run_of_move (I := fun g => g.Updates ∧ g.Sound) ⟨h, hs⟩ fun g move _ hg => ?_).1
  refine ⟨?_, hg.2.move move⟩
  unfold Feed.move
  split
  · exact (hg.1.apply hg.2 ‹_›).sweep
  · exact hg.1

/-- What somebody needs lives. -/
theorem Orderly.alive_of_needed (h : f.Orderly) (hu : f.Updates) {n : Nat}
    (hn : f.isNeeded n = true) : ∃ m, f.manager? n = some m ∧ m.alive = true := by
  unfold isNeeded at hn
  rcases Bool.or_eq_true_iff.1 hn with hn | hn
  · exact h.sound.held (List.contains_iff_mem.1 hn)
  · obtain ⟨t, ht, hk⟩ := List.any_eq_true.1 hn
    cases hw : t.work with
    | load l =>
      rw [hw] at hk
      rcases Bool.or_eq_true_iff.1 hk with hk | hk
      · rw [← of_decide_eq_true hk]
        exact h.loads.starter t ht hw
      · split at hk
        · rename_i r owner hp
          obtain ⟨-, m, hm, hal, -⟩ := h.loads.owner t ht hw hp
          rw [← of_decide_eq_true hk]
          exact ⟨m, hm, hal⟩
        · cases hk
    | products k asking =>
      rw [hw] at hk
      rw [← of_decide_eq_true hk]
      exact hu t ht hw
    | cycle | timer =>
      rw [hw] at hk
      cases hk

/-! ## The law of the registry -/

/-- Who wants the manager of a site holds one that lives. -/
theorem Since.lives_hold (h : f.Since k) (ho : f.Orderly) (radarId : String) :
    (f.move (.hold radarId)).holders = (f.manager radarId).2 :: f.holders ∧
      (f.move (.hold radarId)).Lives k (f.manager radarId).2 (Ascii.upper radarId) := by
  have hm : f.move (.hold radarId) = (f.apply (.hold radarId)).sweep := rfl
  rw [hm]
  have hh : (f.apply (.hold radarId)).holders = (f.manager radarId).2 :: f.holders := by
    rw [show (f.apply (.hold radarId)).holders = _ from
      congrArg Shared.holders (f.shared_apply (.hold radarId))]
    rfl
  have hneed : (f.apply (.hold radarId)).isNeeded (f.manager radarId).2 = true :=
    isNeeded_of_held (hh ▸ List.mem_cons_self)
  refine ⟨?_, ?_, ?_⟩
  · obtain ⟨managers, log, he, -⟩ := (f.apply (.hold radarId)).sweep_eq
    rw [he]
    exact hh
  · cases hl : f.living? (Ascii.upper radarId) with
    | none =>
      rw [(brings_manager hl).1]
      exact h.counted
    | some n =>
      rw [manager_of_living hl]
      exact ((h.living?_eq_some_iff ho.named).1 hl).since
  · rw [manager?_sweep_of_needed hneed]
    exact ho.named.radarId_manager radarId

/-- **The law of the registry.** Among the managers created since the registry was last cleared, one
at most lives for each site; it is that one that who wants the manager of the site gets, however its
id is written, and one that was not there before if there is none. All managers that are created are
announced, each once and in the order of their creation, by the id of their site in capitals. The
active sites are those of such managers that live, sorted and without repetition. And a manager
lives as long as somebody holds it or the work under way keeps it. -/
theorem one_manager_per_site (sites : SiteTable) (settings : Settings) (moves : List FeedMove) :
    let f := (new sites settings).run moves
    let k := (new sites settings).clearedAt 0 moves
    (∀ {n n' id}, f.Lives k n id → f.Lives k n' id → n = n') ∧
    (∀ radarId,
      (∀ n, f.Lives k n (Ascii.upper radarId) → f.manager radarId = (f, n)) ∧
      ((∀ n, ¬ f.Lives k n (Ascii.upper radarId)) →
        (f.manager radarId).2 = f.managers.length ∧
          (f.manager radarId).1.managers.map Manager.radarId =
            f.managers.map Manager.radarId ++ [Ascii.upper radarId]) ∧
      (f.move (.hold radarId)).holders = (f.manager radarId).2 :: f.holders ∧
      (f.move (.hold radarId)).Lives k (f.manager radarId).2 (Ascii.upper radarId)) ∧
    f.created.sent = f.managers.map Manager.radarId ∧
    (∀ id ∈ f.created.sent, Ascii.upper id = id) ∧
    f.activeSites.Pairwise (· < ·) ∧
    (∀ id, id ∈ f.activeSites ↔ ∃ n, f.Lives k n id) ∧
    ∀ n m, f.manager? n = some m → (m.alive = true ↔ f.isNeeded n = true) := by
  intro f k
  have hk : f.Since k := (since_new sites settings).run moves
  have ho : f.Orderly := (orderly_new sites settings).run moves
  have hs : (new sites settings).Sound := sound_new sites settings
  have hann : f.Announced := Announced.run ⟨rfl, by simp [new]⟩ moves
  have hupd : f.Updates := Updates.run (fun t ht => by simp [new] at ht) hs moves
  refine ⟨fun {n n' id} h h' => ?_, fun radarId => ⟨fun n h => ?_, fun h => ?_, ?_⟩, hann.sent,
    hann.sent ▸ hann.capitals, hk.sorted_activeSites, fun id => hk.mem_activeSites ho.named,
    fun n m hm => ⟨fun hal => ?_, fun hn => ?_⟩⟩
  · have hn := (hk.living?_eq_some_iff ho.named).2 h
    have hn' := (hk.living?_eq_some_iff ho.named).2 h'
    exact Option.some.inj (hn.symm.trans hn')
  · exact manager_of_living ((hk.living?_eq_some_iff ho.named).2 h)
  · obtain ⟨hn, hb⟩ := brings_manager ((hk.living?_eq_none_iff ho.named).2 h)
    exact ⟨hn, hb.managers⟩
  · exact hk.lives_hold ho radarId
  · exact tended_run_new sites settings moves n m hm hal
  · obtain ⟨m', hm', hal⟩ := ho.alive_of_needed hupd hn
    cases Option.some.inj (hm.symm.trans hm')
    exact hal

end Feed

end RadarFeed
