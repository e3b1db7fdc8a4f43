import RadarFeed.Proofs.Feed.Registry

/-!
Where records are kept.

Whoever loads a record, it stands with the manager of its own site: a volume among the volumes, a
product under its code in capitals, each at the whole second of its file. `Manager.Filed` holds of
the managers of every feed (`Orderly`); `kept_in_place` spells it out.
-/

namespace RadarFeed

namespace Manager

variable {m : Manager} {key : Option String} {code : String} {t : Instant} {r : Record}

theorem keyOf_ofFile (serial : Nat) (file : RadarFile) :
    keyOf (.ofFile serial file) = file.productCode.map Ascii.upper := by
  cases file <;> rfl

theorem Filed.keyOf_file (h : m.Filed) (hr : m.Holds key t r) :
    key = r.file.productCode.map Ascii.upper := by
  have hk : key = keyOf r := (h.place hr).1
  rw [h.made hr, keyOf_ofFile] at hk
  exact hk

theorem Filed.time_file (h : m.Filed) (hr : m.Holds key t r) :
    t = r.time ∧ r.time = r.file.time.truncate := by
  constructor
  · exact (h.place hr).2
  · rw [h.made hr]
    rfl

/-- What stands among the volumes is a volume. -/
theorem Filed.volume (h : m.Filed) (hr : m.Holds none t r) : r.group = .level2 := by
  have hk := h.keyOf_file hr
  rw [h.made hr]
  show r.file.group = .level2
  cases hf : r.file with
  | level2 v => rfl
  | level3 p => rw [hf] at hk; cases hk

/-- What stands under a code is a product of that code, in some letters. -/
theorem Filed.product (h : m.Filed) (hr : m.Holds (some code) t r) :
    r.group = .level3 ∧ ∃ product, r.product = some product ∧ Ascii.upper product = code := by
  have hk := h.keyOf_file hr
  rw [h.made hr]
  show r.file.group = .level3 ∧ ∃ product, r.file.productCode = some product ∧ _
  cases hf : r.file with
  | level2 v => rw [hf] at hk; cases hk
  | level3 p =>
    rw [hf] at hk
    exact ⟨rfl, p.productCode, rfl, (Option.some.inj hk).symm⟩

theorem Filed.grids (h : m.Filed) (hr : m.Holds key t r) :
    m.initialized = true ∧ ∀ size, m.gridLength size = size.gridLength := by
  have hi : m.initialized = true := h.ready hr
  exact ⟨hi, fun size => if_pos hi⟩

end Manager

namespace Feed

/-- **Each record stands where it belongs.** Whatever was loaded through whichever managers, what a
manager holds among its volumes are volumes of its site, and what it holds under a code are products
of its site with that code in capitals; each record stands at its time, which is that of its file to
the second; and a manager that holds any record has both grids. -/
theorem kept_in_place (sites : SiteTable) (settings : Settings) (moves : List FeedMove) {n : Nat}
    {m : Manager} (hm : ((new sites settings).run moves).manager? n = some m) :
    (∀ t r, (t, r) ∈ m.level2Cache.records.entries →
      r.group = .level2 ∧ r.radarId = m.radarId ∧ t = r.time ∧ r.time = r.file.time.truncate) ∧
    (∀ code c t r, (code, c) ∈ m.level3Caches.entries → (t, r) ∈ c.records.entries →
      r.group = .level3 ∧ (∃ product, r.product = some product ∧ Ascii.upper product = code) ∧
      r.radarId = m.radarId ∧ t = r.time ∧ r.time = r.file.time.truncate) ∧
    (m.level2Cache.records.entries ≠ [] ∨
        (∃ code c, (code, c) ∈ m.level3Caches.entries ∧ c.records.entries ≠ []) →
      m.initialized = true ∧ ∀ size, m.gridLength size = size.gridLength) := by
  have hf : m.Filed := ((orderly_new sites settings).run moves).filed hm
  refine ⟨?_, ?_, ?_⟩
  · intro t r hr
    have hr : m.Holds none t r := hr
    exact ⟨hf.volume hr, hf.own hr, hf.time_file hr⟩
  · intro code c t r hc hr
    have hr : m.Holds (some code) t r := ⟨c, hc, hr⟩
    obtain ⟨hg, hp⟩ := hf.product hr
    exact ⟨hg, hp, hf.own hr, hf.time_file hr⟩
  · rintro (h | ⟨code, c, hc, h⟩)
    · obtain ⟨⟨t, r⟩, hr⟩ := List.exists_mem_of_ne_nil _ h
      have hr : m.Holds none t r := hr
      exact hf.grids hr
    · obtain ⟨⟨t, r⟩, hr⟩ := List.exists_mem_of_ne_nil _ h
      have hr : m.Holds (some code) t r := ⟨c, hc, hr⟩
      exact hf.grids hr

/-- A volume that names its radar in some letters. -/
def volumeOf (radarId : String) : RadarFile :=
  .level2 ⟨⟨radarId, "06", "001", ⟨1767225600, 500000000⟩⟩, []⟩

/-- A product of a radar, both in some letters. -/
def productOf (radarId code : String) : RadarFile :=
  .level3 ⟨radarId, code, "", ⟨1767225660, 0⟩, default⟩

/-- Moves by which a volume and a product of one site are loaded through another. -/
def loadingElsewhere : List FeedMove :=
  [.hold "KTLX", .hold "KLSX",
    .load 0 (.stream (.ok [])) none, .beginLoad 0 ⟨none, none⟩,
    .decoded 0 (.file (volumeOf "klsx")) [], .gridsReady 0, .answer 0,
    .load 0 (.stream (.ok [])) none, .beginLoad 1 ⟨none, none⟩,
    .decoded 1 (.file (productOf "Klsx" "n0b")) [], .gridsReady 1, .answer 1]

theorem kept_in_place_elsewhere :
    let f := (new .empty .default).run loadingElsewhere
    ∃ m, f.manager? 1 = some m ∧ m.radarId = "KLSX" ∧
      m.level2Cache.times = [⟨1767225600, 0⟩] ∧ m.level3Caches.keys = ["N0B"] ∧
      (∀ t r, (t, r) ∈ m.level2Cache.records.entries → r.group = .level2 ∧ r.radarId = "KLSX") ∧
      (∀ c t r, ("N0B", c) ∈ m.level3Caches.entries → (t, r) ∈ c.records.entries →
        r.group = .level3 ∧ r.radarId = "KLSX") ∧
      m.gridLength .halfDegree = Geodesy.RadialSize.halfDegree.gridLength := by
  intro f
  obtain ⟨m, hm, hid, ht, hk, hne⟩ : ∃ m, f.manager? 1 = some m ∧ m.radarId = "KLSX" ∧
      m.level2Cache.times = [⟨1767225600, 0⟩] ∧ m.level3Caches.keys = ["N0B"] ∧
      m.level2Cache.records.entries ≠ [] :=
    ⟨_, rfl, rfl, rfl, rfl, List.cons_ne_nil _ _⟩
  obtain ⟨hvolumes, hproducts, hgrids⟩ := kept_in_place .empty .default loadingElsewhere hm
  refine ⟨m, hm, hid, ht, hk, ?_, ?_, (hgrids (.inl hne)).2 .halfDegree⟩
  · intro t r hr
    obtain ⟨hg, hr, -⟩ := hvolumes t r hr
    exact ⟨hg, hr.trans hid⟩
  · intro c t r hc hr
    obtain ⟨hg, -, hr, -⟩ := hproducts "N0B" c t r hc hr
    exact ⟨hg, hr.trans hid⟩

end Feed

end RadarFeed
