import RadarFeed.Cache
import RadarFeed.Proofs.Keys

/-!
Looking values up by time.

A timeline has one value at each instant, so to be found at an instant is to stand there
(`get?_eq_some_iff`). `latest` gives the value at the greatest instant, `atOrBefore` the one at the
greatest instant that is not after the time asked for. A cache into which records are put one by one
holds the first of each time (`mem_insertAll`), and what it gives for a time is said by `IsLast`.
-/

namespace RadarFeed

/-- Of the entries in ascending order, the last one is the greatest. -/
theorem getLast?_eq_some_iff_greatest {α : Type} {s : List (Instant × α)}
    (h : s.Pairwise fun a b => a.1 < b.1) {e : Instant × α} :
    s.getLast? = some e ↔ e ∈ s ∧ ∀ d ∈ s, d.1 ≤ e.1 := by
  have last : ∀ d, s.getLast? = some d → d ∈ s ∧ ∀ c ∈ s, c ≠ d → c.1 < d.1 := by
    intro d hd
    obtain ⟨front, rfl⟩ := List.getLast?_eq_some_iff.1 hd
    refine ⟨by simp, fun c hc hne => ?_⟩
    rcases List.mem_append.1 hc with hc | hc
    · exact (List.pairwise_append.1 h).2.2 c hc d (by simp)
    · exact absurd (List.mem_singleton.1 hc) hne
  constructor
  · intro he
    obtain ⟨hmem, hlt⟩ := last e he
    refine ⟨hmem, fun d hd => ?_⟩
    by_cases hde : d = e
    · rw [hde]
      exact Instant.le_refl _
    · exact Instant.le_of_lt (hlt d hd hde)
  · rintro ⟨he, hle⟩
    have hne : s ≠ [] := List.ne_nil_of_mem he
    have hl : s.getLast? = some (s.getLast hne) := List.getLast?_eq_some_getLast hne
    obtain ⟨hd, hlt⟩ := last _ hl
    by_cases hed : e = s.getLast hne
    · rw [hed]
      exact hl
    · have h₁ : e.1 < (s.getLast hne).1 := hlt e he hed
      have h₂ : (s.getLast hne).1 ≤ e.1 := hle _ hd
      exact absurd h₁ (Instant.not_lt.2 h₂)

namespace Timeline

variable {α : Type} {l : Timeline α} {t : Instant} {x : α}

/-- There is one value at each instant. -/
theorem eq_of_mem {y : α} (hx : (t, x) ∈ l.entries) (hy : (t, y) ∈ l.entries) : x = y := by
  have distinct : ∀ s : List (Instant × α), s.Pairwise (fun a b => a.1 < b.1) →
      (t, x) ∈ s → (t, y) ∈ s → x = y := by
    intro s hs hx hy
    induction s with
    | nil => cases hx
    | cons d s ih =>
      obtain ⟨hd, hs⟩ := List.pairwise_cons.1 hs
      have later : ∀ z, (t, z) ∈ s → d.1 ≠ t := by
        intro z hz hdt
        have hlt : d.1 < t := hd _ hz
        rw [hdt] at hlt
        exact Instant.lt_irrefl t hlt
      rcases List.mem_cons.1 hx with hx | hx <;> rcases List.mem_cons.1 hy with hy | hy
      · exact congrArg Prod.snd (hx.trans hy.symm)
      · exact absurd (congrArg Prod.fst hx).symm (later y hy)
      · exact absurd (congrArg Prod.fst hy).symm (later x hx)
      · exact ih hs hx hy
  exact distinct l.entries l.sorted hx hy

theorem get?_eq_some_iff : l.get? t = some x ↔ (t, x) ∈ l.entries := by
  constructor
  · exact mem_of_get?
  · intro h
    cases hg : l.get? t with
    | some y => rw [eq_of_mem (mem_of_get? hg) h]
    | none =>
      have hn : ∀ e ∈ l.entries, ¬ e.1 = t := by
        simpa [get?] using hg
      exact absurd rfl (hn _ h)

/-- The last value is the one at the greatest instant. -/
theorem latest_eq_some_iff :
    l.latest = some x ↔ ∃ k, (k, x) ∈ l.entries ∧ ∀ e ∈ l.entries, e.1 ≤ k := by
  simp only [latest, Option.map_eq_some_iff, getLast?_eq_some_iff_greatest l.sorted]
  constructor
  · rintro ⟨⟨k, y⟩, ⟨hm, hle⟩, rfl⟩
    exact ⟨k, hm, hle⟩
  · rintro ⟨k, hm, hle⟩
    exact ⟨(k, x), ⟨hm, hle⟩, rfl⟩

theorem latest_eq_none_iff : l.latest = none ↔ l.entries = [] := by
  simp [latest]

/-- The value found for a time is the one at the greatest instant that is not after it. -/
theorem atOrBefore_eq_some_iff :
    l.atOrBefore t = some x ↔
      ∃ k, (k, x) ∈ l.entries ∧ k ≤ t ∧ ∀ e ∈ l.entries, e.1 ≤ t → e.1 ≤ k := by
  have hs : (l.entries.filter fun e => decide (e.1 ≤ t)).Pairwise fun a b => a.1 < b.1 :=
    l.sorted.sublist List.filter_sublist
  simp only [atOrBefore, Option.map_eq_some_iff, getLast?_eq_some_iff_greatest hs,
    List.mem_filter, decide_eq_true_eq]
  constructor
  · rintro ⟨⟨k, y⟩, ⟨⟨hm, hk⟩, hle⟩, rfl⟩
    exact ⟨k, hm, hk, fun e he het => hle e ⟨he, het⟩⟩
  · rintro ⟨k, hm, hk, hle⟩
    exact ⟨(k, x), ⟨⟨hm, hk⟩, fun e he => hle e he.1 he.2⟩, rfl⟩

/-- Nothing is found for a time before all instants that have a value. -/
theorem atOrBefore_eq_none_iff : l.atOrBefore t = none ↔ ∀ e ∈ l.entries, ¬ e.1 ≤ t := by
  simp [atOrBefore]

end Timeline

namespace Cache

variable {rs : List Record} {r : Record} {t : Instant}

/-- The cache after records have been put into it one by one. -/
def insertAll (c : Cache) (rs : List Record) : Cache :=
  rs.foldl insert c

/-- `r` is the first of the records of its time. -/
def IsFirst (rs : List Record) (r : Record) : Prop :=
  rs.find? (fun x => decide (x.time = r.time)) = some r

/-- `r` is the first of the records of its time, and no other time of a record lies between that
and `t`. -/
structure IsLast (rs : List Record) (t : Instant) (r : Record) : Prop where
  first : IsFirst rs r
  past : r.time ≤ t
  last : ∀ x ∈ rs, x.time ≤ t → x.time ≤ r.time

theorem IsFirst.mem (h : IsFirst rs r) : r ∈ rs :=
  List.mem_of_find?_eq_some h

/-- Of the records of one time the first one stays. -/
theorem get?_insertAll (c : Cache) (rs : List Record) (t : Instant) :
    (c.insertAll rs).records.get? t =
      (c.records.get? t).or (rs.find? fun r => decide (r.time = t)) := by
  induction rs generalizing c with
  | nil => exact (Option.or_none).symm
  | cons r rs ih =>
    have hr : (c.insert r).records.get? t =
        (c.records.get? t).or (if t = r.time then some r else none) :=
      c.records.get?_insertNew r.time t r
    show ((c.insert r).insertAll rs).records.get? t = _
    rw [ih, hr, Option.or_assoc]
    by_cases h : r.time = t
    · simp [h]
    · simp [h, Ne.symm h]

/-- What is held is the first record of each time. -/
theorem mem_insertAll :
    (t, r) ∈ (empty.insertAll rs).records.entries ↔ r.time = t ∧ IsFirst rs r := by
  have hfind : (t, r) ∈ (empty.insertAll rs).records.entries ↔
      rs.find? (fun x => decide (x.time = t)) = some r := by
    rw [← Timeline.get?_eq_some_iff, get?_insertAll]
    exact Iff.of_eq (congrArg (· = some r) Option.none_or)
  rw [hfind]
  constructor
  · intro h
    obtain rfl : r.time = t := key_of_find? h
    exact ⟨rfl, h⟩
  · rintro ⟨rfl, h⟩
    exact h

/-- The instants at which something is held are the times of the records. -/
theorem forall_mem_insertAll (P : Instant → Prop) :
    (∀ e ∈ (empty.insertAll rs).records.entries, P e.1) ↔ ∀ x ∈ rs, P x.time := by
  constructor
  · intro h x hx
    obtain ⟨y, hy⟩ := exists_find?_key Record.time hx
    have ht : y.time = x.time := key_of_find? hy
    have hfirst : IsFirst rs y := by rw [IsFirst, ht]; exact hy
    exact h (x.time, y) (mem_insertAll.2 ⟨ht, hfirst⟩)
  · rintro h ⟨k, y⟩ he
    obtain ⟨hk, hy⟩ := mem_insertAll.1 he
    have hP : P y.time := h y hy.mem
    rw [hk] at hP
    exact hP

theorem atOrBefore_insertAll : (empty.insertAll rs).atOrBefore t = some r ↔ IsLast rs t r := by
  rw [atOrBefore, Timeline.atOrBefore_eq_some_iff]
  constructor
  · rintro ⟨k, hm, hk, hle⟩
    obtain ⟨rfl, hfirst⟩ := mem_insertAll.1 hm
    exact ⟨hfirst, hk, (forall_mem_insertAll fun u => u ≤ t → u ≤ r.time).1 hle⟩
  · intro h
    exact ⟨r.time, mem_insertAll.2 ⟨rfl, h.first⟩, h.past,
      (forall_mem_insertAll fun u => u ≤ t → u ≤ r.time).2 h.last⟩

theorem atOrBefore_insertAll_none :
    (empty.insertAll rs).atOrBefore t = none ↔ ∀ x ∈ rs, ¬ x.time ≤ t := by
  rw [atOrBefore, Timeline.atOrBefore_eq_none_iff]
  exact forall_mem_insertAll fun u => ¬ u ≤ t

theorem latest_insertAll :
    (empty.insertAll rs).latest = some r ↔ IsFirst rs r ∧ ∀ x ∈ rs, x.time ≤ r.time := by
  rw [latest, Timeline.latest_eq_some_iff]
  constructor
  · rintro ⟨k, hm, hle⟩
    obtain ⟨rfl, hfirst⟩ := mem_insertAll.1 hm
    exact ⟨hfirst, (forall_mem_insertAll fun u => u ≤ r.time).1 hle⟩
  · rintro ⟨hfirst, hle⟩
    exact ⟨r.time, mem_insertAll.2 ⟨rfl, hfirst⟩,
      (forall_mem_insertAll fun u => u ≤ r.time).2 hle⟩

end Cache

end RadarFeed
