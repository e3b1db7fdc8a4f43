import RadarFeed.Proofs.Manager.Change

/-!
What happens to the caches of a manager.

Only `store` puts a record into a cache, and only where there was none (`get?_change`,
`holds_change`). `Filed` says of all that the caches hold that it stands where it belongs: with the
manager of its site, in the cache of its group and product, at its time; and that the grids of such
a manager are computed. `Routed` says the same of what is found in the caches.
-/

namespace RadarFeed

namespace Manager

variable {m : Manager} {p : Option String} {t : Instant} {r x : Record}

/-- The code in capitals under which a manager has the cache of a record; volumes have none. -/
def keyOf (r : Record) : Option String :=
  (cacheKey r).map Ascii.upper

/-- Each record stands where it belongs. -/
structure Routed (m : Manager) : Prop where
  radarId : ∀ {p t r}, (m.cacheOf p).get? t = some r → r.radarId = m.radarId
  key : ∀ {p t r}, (m.cacheOf p).get? t = some r → keyOf r = p.map Ascii.upper
  time : ∀ {p t r}, (m.cacheOf p).get? t = some r → r.time = t.truncate

theorem cacheOf_congr {p q : Option String} (h : p.map Ascii.upper = q.map Ascii.upper) :
    m.cacheOf p = m.cacheOf q := by
  cases p <;> cases q <;> simp [cacheOf, level3Cache] at h ⊢
  rw [h]

theorem get?_ensureCache (m : Manager) (product : String) (p : Option String) (t : Instant) :
    ((m.ensureCache product).cacheOf p).get? t = (m.cacheOf p).get? t := by
  cases p with
  | none => rfl
  | some p =>
    simp only [ensureCache, cacheOf, level3Cache, Keyed.get?_ensure]
    cases m.level3Caches.get? (Ascii.upper p) with
    | some c => rfl
    | none => split <;> rfl

theorem cacheOf_store (m : Manager) (x : Record) (p : Option String) :
    (m.store x).cacheOf p =
      if p.map Ascii.upper = keyOf x then (m.cacheOf p).insert x else m.cacheOf p := by
  unfold store keyOf cacheKey
  split
  · rename_i product _ _
    cases p with
    | none => rfl
    | some q =>
      by_cases h : Ascii.upper q = Ascii.upper product
      · have : m.cacheOf (some q) = m.cacheOf (some product) := cacheOf_congr (by simp [h])
        rw [if_pos (by simp [h]), this]
        simp [cacheOf, level3Cache, h, Keyed.get?_set_same]
      · rw [if_neg (by simpa using h)]
        simp [cacheOf, level3Cache, Keyed.get?_set_ne _ h]
  · cases p <;> simp [cacheOf, level3Cache]

theorem get?_change (retry : Duration) (m : Manager) (c : ManagerMove) (p : Option String)
    (t : Instant) :
    ((m.change retry c).cacheOf p).get? t = ((m.cacheOf p).get? t).or
      (match c with
        | .store x => if p.map Ascii.upper = keyOf x ∧ t.truncate = x.time then some x else none
        | _ => none) := by
  cases c with
  | step q move =>
    rw [Option.or_none]
    simp only [change]
    split
    · rfl
    · cases q <;> cases p <;> rfl
  | ensureCache product => exact (get?_ensureCache m product p t).trans (Option.or_none).symm
  | store x =>
    show ((m.store x).cacheOf p).get? t = _
    rw [cacheOf_store]
    by_cases h : p.map Ascii.upper = keyOf x
    · simp [h, Cache.get?_insert]
    · simp [h]
  | ensureMachine | computeGrids | requestProducts | listProducts | close =>
    rw [Option.or_none]
    cases p <;> rfl

/-- A record that a cache holds stays. -/
theorem get?_change_of_some (h : (m.cacheOf p).get? t = some r) (retry : Duration)
    (c : ManagerMove) : ((m.change retry c).cacheOf p).get? t = some r := by
  rw [get?_change, h, Option.some_or]

/-! ## All that the caches hold -/

/-- A record stands at a time in the cache under a key: a code in capitals, or none for volumes. -/
def Holds (m : Manager) (key : Option String) (t : Instant) (r : Record) : Prop :=
  match key with
  | none => (t, r) ∈ m.level2Cache.records.entries
  | some code => ∃ c, (code, c) ∈ m.level3Caches.entries ∧ (t, r) ∈ c.records.entries

/-- All that the caches hold stands where it belongs. -/
structure Filed (m : Manager) : Prop where
  place : ∀ {key t r}, m.Holds key t r → key = keyOf r ∧ t = r.time
  own : ∀ {key t r}, m.Holds key t r → r.radarId = m.radarId
  made : ∀ {key t r}, m.Holds key t r → r = .ofFile r.serial r.file
  ready : ∀ {key t r}, m.Holds key t r → m.initialized = true

theorem holds_of_get? (h : (m.cacheOf p).get? t = some r) :
    m.Holds (p.map Ascii.upper) t.truncate r := by
  cases p with
  | none => exact Timeline.mem_of_get? h
  | some p =>
    simp only [cacheOf, level3Cache] at h
    cases hc : m.level3Caches.get? (Ascii.upper p) with
    | none => rw [hc] at h; cases h
    | some c =>
      rw [hc] at h
      exact ⟨c, Keyed.mem_of_get? hc, Timeline.mem_of_get? h⟩

theorem holds_ensureCache {product : String} {key : Option String}
    (h : (m.ensureCache product).Holds key t r) : m.Holds key t r := by
  cases key with
  | none => exact h
  | some code =>
    obtain ⟨c, hc, hr⟩ := h
    rcases Keyed.mem_ensure hc with hc | hc
    · exact ⟨c, hc, hr⟩
    · cases hc
      cases hr

theorem holds_store {key : Option String} (h : (m.store x).Holds key t r) :
    m.Holds key t r ∨ r = x ∧ key = keyOf x ∧ t = x.time := by
  unfold store at h
  unfold keyOf cacheKey
  split at h
  · rename_i product _ _
    cases key with
    | none => exact .inl h
    | some code =>
      obtain ⟨c, hc, hr⟩ := h
      rcases Keyed.mem_set hc with hc | hc
      · exact .inl ⟨c, hc, hr⟩
      · cases hc
        rcases Timeline.mem_insertNew hr with hr | hr
        · -- the record stood in the cache of the product before
          left
          simp only [cacheOf, level3Cache] at hr
          cases hc : m.level3Caches.get? (Ascii.upper product) with
          | none => rw [hc] at hr; cases hr
          | some c => rw [hc] at hr; exact ⟨c, Keyed.mem_of_get? hc, hr⟩
        · cases hr
          exact .inr ⟨rfl, rfl, rfl⟩
  · cases key with
    | some code => exact .inl h
    | none =>
      rcases Timeline.mem_insertNew h with hr | hr
      · exact .inl hr
      · cases hr
        exact .inr ⟨rfl, rfl, rfl⟩

theorem holds_change {retry : Duration} {c : ManagerMove} {key : Option String}
    (h : (m.change retry c).Holds key t r) :
    m.Holds key t r ∨ c = .store r ∧ key = keyOf r ∧ t = r.time := by
  cases c with
  | step q move =>
    simp only [change] at h
    split at h
    · exact .inl h
    · cases q <;> cases key <;> exact .inl h
  | ensureCache product => exact .inl (holds_ensureCache h)
  | store x =>
    rcases holds_store h with h | ⟨rfl, hk, ht⟩
    · exact .inl h
    · exact .inr ⟨rfl, hk, ht⟩
  | ensureMachine | computeGrids | requestProducts | listProducts | close =>
    cases key <;> exact .inl h

theorem initialized_change (h : m.initialized = true) (retry : Duration) (c : ManagerMove) :
    (m.change retry c).initialized = true := by
  cases c with
  | step q move =>
    simp only [change]
    split
    · exact h
    · cases q <;> exact h
  | store x =>
    show (m.store x).initialized = true
    unfold store
    split <;> exact h
  | computeGrids => rfl
  | ensureMachine | ensureCache | requestProducts | listProducts | close => exact h

/-- A record is stored with the manager of its site, once the grids of that are computed. -/
theorem Filed.change (h : m.Filed) (retry : Duration) {c : ManagerMove}
    (hc : ∀ x, c = .store x →
      x.radarId = m.radarId ∧ x = .ofFile x.serial x.file ∧ m.initialized = true) :
    (m.change retry c).Filed := by
  constructor
  · intro key t r hr
    rcases holds_change hr with hr | ⟨-, hk, ht⟩
    · exact h.place hr
    · exact ⟨hk, ht⟩
  · intro key t r hr
    rw [radarId_change]
    rcases holds_change hr with hr | ⟨rfl, -, -⟩
    · exact h.own hr
    · exact (hc r rfl).1
  · intro key t r hr
    rcases holds_change hr with hr | ⟨rfl, -, -⟩
    · exact h.made hr
    · exact (hc r rfl).2.1
  · intro key t r hr
    refine initialized_change ?_ retry c
    rcases holds_change hr with hr | ⟨rfl, -, -⟩
    · exact h.ready hr
    · exact (hc r rfl).2.2

theorem filed_new (settings : Settings) (radarId : String) (site : Site) :
    (new settings radarId site).Filed := by
  have hn : ∀ {key t r}, ¬ (new settings radarId site).Holds key t r := by
    intro key t r h
    cases key with
    | none => cases h
    | some code =>
      obtain ⟨c, hc, -⟩ := h
      cases hc
  constructor <;> intro key t r h <;> exact absurd h hn

theorem Filed.routed (h : m.Filed) : m.Routed := by
  constructor <;> intro p t r hr <;> have hh := holds_of_get? hr
  · exact h.own hh
  · exact (h.place hh).1.symm
  · exact (h.place hh).2.symm

/-- Where a record belongs, a manager that has it holds it. -/
theorem Routed.get?_keyOf (h : m.Routed) (hr : (m.cacheOf p).get? t = some r) :
    (m.cacheOf (cacheKey r)).get? r.time = some r := by
  have hk : m.cacheOf (cacheKey r) = m.cacheOf p := cacheOf_congr (h.key hr)
  have ht : r.time.truncate = t.truncate := by rw [h.time hr, Instant.truncate_truncate]
  rw [hk, Cache.get?, ht]
  exact hr

/-- After a record has been stored, its place holds what was stored there first. -/
theorem get?_store (m : Manager) (hx : x.time.truncate = x.time) :
    ((m.store x).cacheOf (cacheKey x)).get? x.time = some (m.stored x) := by
  have hk : (cacheKey x).map Ascii.upper = keyOf x := rfl
  rw [cacheOf_store, if_pos hk, Cache.get?_insert, if_pos hx]
  unfold stored Cache.stored Cache.get?
  rw [hx]
  cases (m.cacheOf (cacheKey x)).records.get? x.time <;> rfl

end Manager

end RadarFeed
