import RadarFeed.Proofs.Cache.Lookup
import RadarFeed.Proofs.Feed.Files
import RadarFeed.Proofs.Feed.Serials

/-!
Files that have been loaded, and the managers of their sites.

The index of files lasts as long as the feed, the caches of a manager as long as the manager. A load
of a file answers with the record that the index has; the manager of the record's site holds it
exactly if it has been there since that entry was made (`Predates`). One that has been created anew
since does not, for a record is stored once: `loaded_file_is_cached_iff`.
-/

namespace RadarFeed

namespace Manager

variable {m : Manager} {r : Record} {p : Option String} {t : Instant}

theorem mem_of_cacheOf (h : (m.cacheOf p).get? r.time = some r) (hr : r = .ofFile r.serial r.file) :
    (r.time, r) ∈ (m.cacheOf p).records.entries := by
  have h : (m.cacheOf p).records.get? r.time.truncate = some r := h
  rw [Record.truncate_time hr] at h
  exact Timeline.mem_of_get? h

/-- The record that a cache holds at the last of its times that is not after `t` is found at `t`. -/
theorem atOrBefore_of_last (h : (m.cacheOf p).get? r.time = some r)
    (hr : r = .ofFile r.serial r.file) (hle : r.time ≤ t)
    (hlast : ∀ e ∈ (m.cacheOf p).records.entries, e.1 ≤ t → e.1 ≤ r.time) :
    (m.cacheOf p).atOrBefore t = some r :=
  Timeline.atOrBefore_eq_some_iff.2 ⟨r.time, mem_of_cacheOf h hr, hle, hlast⟩

/-- A product is found at the time of its record. -/
theorem level3Record_of_cached {product : String}
    (h : (m.cacheOf (some product)).get? r.time = some r) (hr : r = .ofFile r.serial r.file) :
    m.level3Record product (some r.time) = some r := by
  have hfound : (m.cacheOf (some product)).atOrBefore r.time = some r :=
    atOrBefore_of_last h hr (Instant.le_refl _) fun _ _ hle => hle
  simp only [level3Record, cacheOf] at hfound ⊢
  cases hc : m.level3Cache product with
  | none =>
    rw [hc] at hfound
    cases hfound
  | some c =>
    rw [hc] at hfound
    exact hfound

/-- A volume is found from its start on, until the next one that is held. -/
theorem level2Record_of_cached (h : (m.cacheOf none).get? r.time = some r)
    (hr : r = .ofFile r.serial r.file) (hp : r.product = none) (hle : r.time ≤ t)
    (hlast : ∀ e ∈ m.level2Cache.records.entries, e.1 ≤ t → e.1 ≤ r.time) :
    m.level2Record (some t) = if r.file.time ≤ t then some r else none := by
  have hfound : m.level2Cache.atOrBefore t = some r := atOrBefore_of_last h hr hle hlast
  have hstarted : hadStarted t r = decide (r.file.time ≤ t) := by
    rw [hr] at hp ⊢
    cases hf : r.file with
    | level2 v => rfl
    | level3 d =>
      rw [hf] at hp
      cases hp
  simp only [level2Record, hfound, Option.filter_some, hstarted, decide_eq_true_eq]

end Manager

namespace Feed

variable {f : Feed} {moves : List FeedMove} {n : Nat}

/-- Whenever a path has an entry in the index of files, the manager `n` is there. -/
def Predates (f : Feed) (moves : List FeedMove) (p : Path) (n : Nat) : Prop :=
  ∀ early late, moves = early ++ late → (f.run early).files.get? p ≠ none →
    (f.run early).manager? n ≠ none

/-- A manager that is there stays there, and if it lives after a move it lived before. -/
theorem manager_move {m : Manager} (hm : f.manager? n = some m) (move : FeedMove) :
    ∃ m', (f.move move).manager? n = some m' ∧
      (m'.alive = true → m.alive = true ∧ m.radarId = m'.radarId) := by
  unfold Feed.move
  split
  · obtain ⟨m₁, hm₁, hal₁, hid₁⟩ := alive_apply hm move
    refine ⟨_, by rw [manager?_sweep, hm₁, Option.map_some], fun hal => ?_⟩
    have hsame := swept_of_alive hal
    rw [hsame] at hal ⊢
    exact ⟨hal₁ ▸ hal, hid₁.symm⟩
  · exact ⟨m, hm, fun hal => ⟨hal, rfl⟩⟩

theorem manager_run {m : Manager} (hm : f.manager? n = some m) (moves : List FeedMove) :
    ∃ m', (f.run moves).manager? n = some m' ∧
      (m'.alive = true → m.alive = true ∧ m.radarId = m'.radarId) := by
  induction moves generalizing f m with
  | nil => exact ⟨m, hm, fun hal => ⟨hal, rfl⟩⟩
  | cons move moves ih =>
    obtain ⟨m₁, hm₁, hfirst⟩ := manager_move hm move
    obtain ⟨m', hm', hrest⟩ := ih hm₁
    refine ⟨m', hm', fun hal => ?_⟩
    obtain ⟨hal₁, hid₁⟩ := hrest hal
    obtain ⟨hal₀, hid₀⟩ := hfirst hal₁
    exact ⟨hal₀, hid₀.trans hid₁⟩

/-- When a file gets its entry, the manager of the record's site holds the record, and no other
manager of the site lives. -/
theorem Indexes.cached {p : Path} {r : Record} {before : List FeedMove} {move : FeedMove}
    (h : f.Indexes p r before move) (hf : (f.run before).Coherent) :
    ∃ owner, ((f.run before).move move).cached owner (Manager.cacheKey r) r.time = some r ∧
      ∀ n m, ((f.run before).move move).manager? n = some m → m.alive = true →
        m.radarId = r.radarId → n = owner := by
  obtain ⟨task, l, x, owner, q, rfl, hl, hp, rfl, -, -⟩ := h
  generalize f.run before = e at hf hl hp ⊢
  have hmove : e.move (.gridsReady task) = (e.apply (.gridsReady task)).sweep := rfl
  have hl' := load?_gridsReady hl hp
  rw [hmove, load?_sweep] at hl'
  obtain ⟨hlive, hr⟩ := hf.of_obtains ⟨⟨_, hl', rfl⟩, l, hl, .inr ⟨x, hp⟩⟩
  have hg : (e.apply (.gridsReady task)).Coherent := hf.apply rfl (by intro he; cases he)
  rw [hmove]
  refine ⟨owner, cached_sweep hr, fun n m hm hal hsite => ?_⟩
  rw [manager?_sweep] at hm
  obtain ⟨m₀, hm₀, rfl⟩ := Option.map_eq_some_iff.1 hm
  have hsame := swept_of_alive hal
  rw [hsame] at hal hsite
  have hn := hg.registered.living?_eq hm₀ hal
  rw [hsite] at hn
  exact Option.some.inj (hn.symm.trans hlive)

section
variable {sites : SiteTable} {settings : Settings} {p : Path} {r : Record}

/-- A manager that lives, and was there when a file got its entry, holds the record. -/
theorem Predates.cached (h : (new sites settings).Predates moves p n) (hc : .cleanup ∉ moves)
    (hentry : ((new sites settings).run moves).files.get? p = some r) {m : Manager}
    (hm : ((new sites settings).run moves).manager? n = some m) (hal : m.alive = true)
    (hsite : m.radarId = r.radarId) :
    ((new sites settings).run moves).cached n (Manager.cacheKey r) r.time = some r := by
  obtain ⟨early, move, late, rfl, hi⟩ := sometime_indexes sites settings hc hentry
  have hce : .cleanup ∉ early := fun he => hc (List.mem_append_left _ he)
  obtain ⟨owner, hr, hunique⟩ := hi.cached ((coherent_new sites settings).run hce)
  have hthere : ((new sites settings).run (early ++ [move])).manager? n ≠ none := by
    refine h (early ++ [move]) late (by simp) ?_
    rw [run_concat, hi.entry]
    simp
  rw [run_concat] at hthere
  rw [run_append, run_cons] at hm ⊢
  obtain ⟨m₁, hm₁⟩ := Option.ne_none_iff_exists'.1 hthere
  obtain ⟨m', hm', hlived⟩ := manager_run hm₁ late
  cases Option.some.inj (hm.symm.trans hm')
  obtain ⟨hal₁, hid⟩ := hlived hal
  -- of the managers of the site only the owner lived then
  rw [hunique n m₁ hm₁ hal₁ (hid.trans hsite)]
  exact cached_run hr late

/-- A manager that was not there when a file had its entry never holds the record. -/
theorem predates_of_cached (hc : .cleanup ∉ moves)
    (hentry : ((new sites settings).run moves).files.get? p = some r) {q : Option String}
    {t : Instant} (h : ((new sites settings).run moves).cached n q t = some r) :
    (new sites settings).Predates moves p n := by
  rintro early late rfl hne hnone
  have hce : .cleanup ∉ early := fun he => hc (List.mem_append_left _ he)
  have hcl : .cleanup ∉ late := fun he => hc (List.mem_append_right _ he)
  rw [run_append] at hentry h
  -- the path has this record already
  obtain ⟨r', hr'⟩ := Option.ne_none_iff_exists'.1 hne
  have hstays := (((indexed_new sites settings).run hce).entry_run hr' hcl).1
  cases Option.some.inj (hstays.symm.trans hentry)
  obtain ⟨first, move, rest, rfl, hi⟩ := sometime_indexes sites settings hce hr'
  have hcf : .cleanup ∉ first := fun he => hce (List.mem_append_left _ he)
  obtain ⟨owner, hr, -⟩ := hi.cached ((coherent_new sites settings).run hcf)
  have hkept := cached_run hr rest
  rw [← run_cons, ← run_append] at hkept
  refine (unique_run sites settings _).elsewhere hkept (fun q t x hx => ?_) late _ _ _ h rfl
  rw [Feed.cached, hnone] at hx
  cases hx

end

/-- What is made of a file goes to the cache of its product, or to that of the volumes. -/
theorem cacheKey_of_made {r : Record} (hr : r = .ofFile r.serial r.file) :
    Manager.cacheKey r = r.product := by
  rw [hr]
  cases r.file <;> rfl

/-- **The manager of a site has the record of a loaded file exactly if it was there before the file
was.** When a load of a file completes with a record, a manager of the record's site that somebody
holds has the record in the cache of its product, or of the volumes, at the time of the record, if
and only if it has been there since the path got its entry in the index of files. If it has, the
record of a product is found at its time, and a volume from its start on until the next one that is
held. -/
theorem loaded_file_is_cached_iff (sites : SiteTable) (settings : Settings)
    {moves : List FeedMove} (hc : .cleanup ∉ moves) {move : FeedMove} {c : Completion} {p : Path}
    {r : Record} (hcomp : ((new sites settings).run moves).completed? move = some c)
    (hs : c.source = .file p) (hr : c.result = some r) :
    let g := (new sites settings).run (moves ++ [move])
    ∀ n m, n ∈ g.holders → g.manager? n = some m → m.radarId = r.radarId →
      ((m.cacheOf (Manager.cacheKey r)).get? r.time = some r ↔
        (new sites settings).Predates (moves ++ [move]) p n) ∧
      ((new sites settings).Predates (moves ++ [move]) p n →
        (∀ product, r.product = some product → m.level3Record product (some r.time) = some r) ∧
        (r.product = none → ∀ t, r.time ≤ t →
          (∀ e ∈ m.level2Cache.records.entries, e.1 ≤ t → e.1 ≤ r.time) →
          m.level2Record (some t) = if r.file.time ≤ t then some r else none)) := by
  intro g n m hn hm hsite
  have hf : ((new sites settings).run moves).Indexed := (indexed_new sites settings).run hc
  have hfiles : ((new sites settings).run moves).files.get? p = some r :=
    hf.of_completed hcomp hs hr
  have hne : move ≠ .cleanup := by
    rintro rfl
    cases hcomp
  have hcg : .cleanup ∉ moves ++ [move] := by
    simpa [hc] using hne.symm
  have hg : g.Coherent := (coherent_new sites settings).run hcg
  have hentry : g.files.get? p = some r := by
    show ((new sites settings).run (moves ++ [move])).files.get? p = some r
    rw [run_concat]
    exact hf.stays hfiles hne
  obtain ⟨m', hm', hal⟩ := hg.sound.held hn
  cases Option.some.inj (hm.symm.trans hm')
  have hcached : (m.cacheOf (Manager.cacheKey r)).get? r.time = some r ↔
      g.cached n (Manager.cacheKey r) r.time = some r := by
    rw [Feed.cached, hm, Option.bind_some]
  have hiff : (m.cacheOf (Manager.cacheKey r)).get? r.time = some r ↔
      (new sites settings).Predates (moves ++ [move]) p n := by
    rw [hcached]
    exact ⟨predates_of_cached hcg hentry, fun h => h.cached hcg hentry hm hal hsite⟩
  refine ⟨hiff, fun hpre => ?_⟩
  have hkept := hiff.2 hpre
  have hmade : r = .ofFile r.serial r.file := (hg.filed hm).made (Manager.holds_of_get? hkept)
  rw [cacheKey_of_made hmade] at hkept
  refine ⟨fun product hp => ?_, fun hp t hle hlast => ?_⟩
  · rw [hp] at hkept
    exact Manager.level3Record_of_cached hkept hmade
  · rw [hp] at hkept
    exact Manager.level2Record_of_cached hkept hmade hp hle hlast

/-- Moves by which a file is loaded through the manager of its site. -/
def loadingProduct : List FeedMove :=
  [.hold "KLSX", .load 0 (.file fileOfVolume) none, .beginLoad 0 ⟨none, none⟩,
    .contents 0 (.ok []), .decoded 0 (.file (productOf "KLSX" "N0B")) [], .gridsReady 0]

/-- The manager that was there has the record. -/
theorem loaded_file_is_cached_at_once :
    let g := (new .empty .default).run (loadingProduct ++ [.answer 0])
    let r := Record.ofFile 0 (productOf "KLSX" "N0B")
    ∃ m, g.manager? 0 = some m ∧ (m.cacheOf (some "N0B")).get? r.time = some r ∧
      m.level3Record "N0B" (some r.time) = some r := by
  have hcomp : ((new .empty .default).run loadingProduct).completed? (.answer 0) =
      some ⟨.file fileOfVolume, none, [], some (.ofFile 0 (productOf "KLSX" "N0B"))⟩ := rfl
  have hc : .cleanup ∉ loadingProduct := by simp [loadingProduct]
  have hheld : 0 ∈ ((new .empty .default).run (loadingProduct ++ [.answer 0])).holders :=
    List.mem_cons_self
  obtain ⟨m, hm, hsite⟩ : ∃ m, ((new .empty .default).run (loadingProduct ++
      [.answer 0])).manager? 0 = some m ∧ m.radarId = "KLSX" := ⟨_, rfl, rfl⟩
  have hpre : (new .empty .default).Predates (loadingProduct ++ [.answer 0]) fileOfVolume 0 := by
    rintro early late he hne
    cases early with
    | nil => exact absurd rfl hne
    | cons move early =>
      obtain ⟨rfl, -⟩ := List.cons.inj he
      have hm₀ : ((new .empty .default).move (.hold "KLSX")).manager? 0 = some _ := rfl
      obtain ⟨m', hm', -⟩ := manager_run hm₀ early
      rw [run_cons, hm']
      simp
  intro g r
  obtain ⟨hiff, hreads⟩ :=
    loaded_file_is_cached_iff .empty .default hc hcomp rfl rfl 0 m hheld hm hsite
  exact ⟨m, hm, hiff.2 hpre, (hreads hpre).1 "N0B" rfl⟩

/-- Moves by which the manager of the site ends and is created anew. -/
def createdAnew : List FeedMove :=
  loadingProduct ++ [.answer 0, .release 0, .hold "KLSX"]

/-- The load of a volume that starts half a second after its time. -/
def loadingVolume : List FeedMove :=
  [.hold "KLSX", .load 0 (.file fileOfVolume) none, .beginLoad 0 ⟨none, none⟩,
    .contents 0 (.ok []), .decoded 0 (.file (volumeOf "KLSX")) [], .gridsReady 0]

/-- A manager that has been created anew does not have the record that the file is loaded with, and
a volume is not found before its start. -/
theorem loaded_file_is_not_cached_anew :
    let f := (new .empty .default).run createdAnew
    let g := f.move (.load 1 (.file fileOfVolume) none)
    let r := Record.ofFile 0 (productOf "KLSX" "N0B")
    let f' := (new .empty .default).run loadingVolume
    let g' := f'.move (.answer 0)
    let r' := Record.ofFile 0 (volumeOf "KLSX")
    .cleanup ∉ createdAnew ∧
      f.completed? (.load 1 (.file fileOfVolume) none) =
        some ⟨.file fileOfVolume, none, [], some r⟩ ∧
      (1 ∈ g.holders ∧ ∃ m, g.manager? 1 = some m ∧ m.alive = true ∧ m.radarId = r.radarId ∧
        (m.cacheOf (some "N0B")).get? r.time = none ∧ m.level3Record "N0B" (some r.time) = none) ∧
      f'.completed? (.answer 0) = some ⟨.file fileOfVolume, none, [], some r'⟩ ∧
      0 ∈ g'.holders ∧ ∃ m, g'.manager? 0 = some m ∧ m.alive = true ∧ m.radarId = r'.radarId ∧
        (m.cacheOf none).get? r'.time = some r' ∧ m.level2Record (some r'.time) = none := by
  have hcomp : ((new .empty .default).run createdAnew).completed?
      (.load 1 (.file fileOfVolume) none) =
        some ⟨.file fileOfVolume, none, [], some (.ofFile 0 (productOf "KLSX" "N0B"))⟩ := rfl
  have hanew : ∃ m, (((new .empty .default).run createdAnew).move
      (.load 1 (.file fileOfVolume) none)).manager? 1 = some m ∧ m.alive = true ∧
        m.radarId = (Record.ofFile 0 (productOf "KLSX" "N0B")).radarId ∧
        (m.cacheOf (some "N0B")).get? (Record.ofFile 0 (productOf "KLSX" "N0B")).time = none ∧
        m.level3Record "N0B" (some (Record.ofFile 0 (productOf "KLSX" "N0B")).time) = none :=
    ⟨_, rfl, rfl, rfl, rfl, rfl⟩
  have hheld : 1 ∈ (((new .empty .default).run createdAnew).move
      (.load 1 (.file fileOfVolume) none)).holders := List.mem_cons_self
  have hcomp' : ((new .empty .default).run loadingVolume).completed? (.answer 0) =
      some ⟨.file fileOfVolume, none, [], some (.ofFile 0 (volumeOf "KLSX"))⟩ := rfl
  have hheld' : 0 ∈ (((new .empty .default).run loadingVolume).move (.answer 0)).holders :=
    List.mem_cons_self
  have hvolume : ∃ m, (((new .empty .default).run loadingVolume).move (.answer 0)).manager? 0 =
      some m ∧ m.alive = true ∧ m.radarId = (Record.ofFile 0 (volumeOf "KLSX")).radarId ∧
        (m.cacheOf none).get? (Record.ofFile 0 (volumeOf "KLSX")).time =
          some (.ofFile 0 (volumeOf "KLSX")) ∧
        m.level2Record (some (Record.ofFile 0 (volumeOf "KLSX")).time) = none :=
    ⟨_, rfl, rfl, rfl, rfl, rfl⟩
  intro f g r f' g' r'
  exact ⟨by simp [createdAnew, loadingProduct], hcomp, ⟨hheld, hanew⟩, hcomp', hheld', hvolume⟩

end Feed

end RadarFeed
