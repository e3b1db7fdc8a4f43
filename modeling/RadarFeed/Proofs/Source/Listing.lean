import Mathlib.Data.List.Induction
import Mathlib.Data.List.Nodup
import Mathlib.Data.List.Perm.Basic
import RadarFeed.Proofs.Cache.Lookup
import RadarFeed.Proofs.Keys
import RadarFeed.Proofs.Source.Names
import RadarFeed.Proofs.Time.Truncation

/-!
What a source knows after it has looked for new objects.

A listing is taken over as a whole: `Lists` says what a source answers once it has read names of
which no two carry one time (`lists_takeListing`), whatever it knew before. A directory that does
not exist is an empty one, and one that cannot be read changes nothing (`refresh_lists`).
-/

namespace RadarFeed

/-! ## Timelines of entries -/

namespace Timeline

variable {α : Type} {l : Timeline α} {t : Instant} {x : α} {s : List (Instant × α)}

theorem get?_insert (l : Timeline α) (t u : Instant) (x : α) :
    (l.insert t x).get? u = if u = t then some x else l.get? u := by
  by_cases h : u = t
  · subst h
    simp only [get?, insert, find?_put_same l.sorted, if_true]
  · rw [if_neg h]
    simp only [get?, insert, find?_put_ne h]

/-- Of the entries at an instant the last one stays. -/
theorem get?_ofList (s : List (Instant × α)) (t : Instant) :
    (ofList s).get? t = (s.reverse.find? fun e => e.1 = t).map Prod.snd := by
  induction s using List.reverseRecOn with
  | nil => rfl
  | append_singleton s e ih =>
    have hlast : ofList (s ++ [e]) = (ofList s).insert e.1 e.2 := by simp [ofList]
    rw [hlast, get?_insert, ih, List.reverse_append]
    by_cases h : e.1 = t
    · simp [h]
    · simp [h, Ne.symm h]

theorem size_ofList_pos (h : s ≠ []) : 0 < (ofList s).size := by
  obtain ⟨front, e, rfl⟩ := (List.eq_nil_or_concat' s).resolve_left h
  have he : (ofList (front ++ [e])).get? e.1 = some e.2 := by simp [get?_ofList]
  exact List.length_pos_of_mem (mem_of_get? he)

/-- Entries at distinct instants are all there. -/
theorem get?_ofList_eq_some_iff (h : (s.map Prod.fst).Nodup) :
    (ofList s).get? t = some x ↔ (t, x) ∈ s := by
  have hreverse : (s.reverse.map Prod.fst).Nodup := by
    rwa [List.map_reverse, List.nodup_reverse]
  simp only [get?_ofList, Option.map_eq_some_iff, find?_key_eq_some_iff hreverse,
    List.mem_reverse]
  constructor
  · rintro ⟨e, ⟨he, rfl⟩, rfl⟩
    exact he
  · intro hx
    exact ⟨_, ⟨hx, rfl⟩, rfl⟩

theorem nodup_times (l : Timeline α) : l.times.Nodup := by
  have hs : l.times.Pairwise (· < ·) := List.pairwise_map.2 l.sorted
  exact hs.imp Instant.ne_of_lt

theorem mem_times_iff : t ∈ l.times ↔ ∃ x, l.get? t = some x := by
  simp only [get?_eq_some_iff, times, List.mem_map]
  constructor
  · rintro ⟨e, he, rfl⟩
    exact ⟨e.2, he⟩
  · rintro ⟨x, hx⟩
    exact ⟨_, hx, rfl⟩

/-- The times are those of the entries. -/
theorem mem_times_ofList : t ∈ (ofList s).times ↔ t ∈ s.map Prod.fst := by
  rw [mem_times_iff, get?_ofList]
  constructor
  · rintro ⟨x, hx⟩
    obtain ⟨e, he, -⟩ := Option.map_eq_some_iff.1 hx
    obtain rfl : e.1 = t := key_of_find? he
    exact List.mem_map_of_mem (List.mem_reverse.1 (List.mem_of_find?_eq_some he))
  · intro ht
    obtain ⟨e, he, rfl⟩ := List.mem_map.1 ht
    obtain ⟨d, hd⟩ := exists_find?_key Prod.fst (List.mem_reverse.2 he)
    exact ⟨d.2, by rw [hd]; rfl⟩

/-- The times of entries at distinct instants, in their order. -/
theorem times_ofList_perm (h : (s.map Prod.fst).Nodup) :
    (ofList s).times.Perm (s.map Prod.fst) :=
  (List.perm_ext_iff_of_nodup (nodup_times _) h).2 fun _ => mem_times_ofList

end Timeline

namespace DirectorySource

variable {s : DirectorySource} {names : List String} {key : String} {t u : Instant}

/-! ## Objects of a listing -/

/-- One of the names is that of an object, of the time `t`. -/
def Found (s : DirectorySource) (names : List String) (t : Instant) (key : String) : Prop :=
  key ∈ names ∧ s.IsObject key t

/-- The time of the newest object among names. -/
def IsNewest (s : DirectorySource) (names : List String) (t : Instant) : Prop :=
  (∃ key, s.Found names t key) ∧ ∀ u key, s.Found names u key → u ≤ t

/-- The time of the newest object among names but for those of the time `t` and later. -/
def IsNewestBefore (s : DirectorySource) (names : List String) (t u : Instant) : Prop :=
  (u < t ∧ ∃ key, s.Found names u key) ∧ ∀ v key, s.Found names v key → v < t → v ≤ u

/-- No two objects among names have one time. -/
def Distinct (s : DirectorySource) (names : List String) : Prop :=
  names.Nodup ∧ ∀ t key key', s.Found names t key → s.Found names t key' → key = key'

theorem mem_eligible : (t, key) ∈ s.eligible names ↔ s.Found names t key := by
  simp only [eligible, List.mem_filterMap, Option.map_eq_some_iff, Prod.mk.injEq, Found,
    ← keyTime_eq_some_iff]
  constructor
  · rintro ⟨name, hname, u, hu, rfl, rfl⟩
    exact ⟨hname, hu⟩
  · rintro ⟨hname, hu⟩
    exact ⟨key, hname, t, hu, rfl, rfl⟩

theorem nodup_eligible (h : names.Nodup) : (s.eligible names).Nodup := by
  refine h.filterMap ?_
  intro name name' e he he'
  simp only [Option.mem_def, Option.map_eq_some_iff] at he he'
  obtain ⟨t, -, rfl⟩ := he
  obtain ⟨u, -, hu⟩ := he'
  exact (congrArg Prod.snd hu).symm

theorem Distinct.nodup_times (h : s.Distinct names) :
    ((s.eligible names).map Prod.fst).Nodup := by
  refine (nodup_eligible h.1).map_on ?_
  rintro ⟨t, key⟩ hkey ⟨u, key'⟩ hkey' htu
  obtain rfl : t = u := htu
  rw [h.2 t key key' (mem_eligible.1 hkey) (mem_eligible.1 hkey')]

theorem distinct_of_nodup (hnames : names.Nodup)
    (h : ((s.eligible names).map Prod.fst).Nodup) : s.Distinct names := by
  refine ⟨hnames, fun t key key' hkey hkey' => ?_⟩
  have heq := List.inj_on_of_nodup_map h (mem_eligible.2 hkey) (mem_eligible.2 hkey') rfl
  exact congrArg Prod.snd heq

/-! ## What is known then -/

/-- What a source knows when it has read names, each time that it knew before counted as old. -/
structure Lists (s : DirectorySource) (names : List String) (s' : DirectorySource) (news : News) :
    Prop where
  /-- The list has each object at its time. -/
  objects : ∀ t key, s'.objects.get? t = some key ↔ s.Found names t key
  /-- All objects are counted, and those at times that had none. -/
  counted : ∃ objects : List (Instant × String), objects.Nodup ∧
    (∀ t key, (t, key) ∈ objects ↔ s.Found names t key) ∧ news.total = objects.length ∧
      news.fresh = objects.countP fun e => (s.objects.get? e.1).isNone
  lastModified : ∀ t, s'.lastModified = some t ↔ s.IsNewest names t
  /-- The period is the span between the two newest objects. -/
  period : ∀ t u, s.IsNewest names t → s.IsNewestBefore names t u →
    (s'.outlook.updatePeriod.nanos : Int) = t.since u
  few : news.total < 2 → s'.outlook.updatePeriod = defaultUpdatePeriod
  /-- A time leads to the newest object not after it. -/
  findKey : ∀ t key, s'.findKey t = some key ↔
    ∃ u, s.Found names u key ∧ u ≤ t ∧ ∀ v k, s.Found names v k → v ≤ t → v ≤ u
  latestKey : ∀ key, s'.latestKey = some key ↔
    ∃ t, s'.lastModified = some t ∧ s.Found names t key
  /-- The time of an object leads back to it. -/
  listed : ∀ t key, s.Found names t key → s'.keyTime key = some t ∧ s'.findKey t = some key
  /-- So does the time that is announced. -/
  announced : ∀ t, s'.outlook.latestTime = some t →
    s'.lastModified = some t ∧ s'.findKey t = s'.outlook.latestKey

/-- The list of objects after the names have been read. -/
def listOf (s : DirectorySource) (names : List String) : Timeline String :=
  Timeline.ofList (s.eligible names)

section
variable (h : s.Distinct names)
include h

theorem get?_listOf : (s.listOf names).get? t = some key ↔ s.Found names t key := by
  rw [listOf, Timeline.get?_ofList_eq_some_iff h.nodup_times, mem_eligible]

theorem mem_listOf : (t, key) ∈ (s.listOf names).entries ↔ s.Found names t key := by
  rw [← Timeline.get?_eq_some_iff, get?_listOf h]

theorem size_listOf : (s.listOf names).size = (s.eligible names).length := by
  have hlength := (Timeline.times_ofList_perm h.nodup_times).length_eq
  simpa [Timeline.times, Timeline.size, listOf] using hlength

theorem fresh_listOf : ((s.listOf names).times.filter fun t => (s.objects.get? t).isNone).length =
    (s.eligible names).countP fun e => (s.objects.get? e.1).isNone := by
  have hperm := (Timeline.times_ofList_perm h.nodup_times).countP_eq
    fun t => (s.objects.get? t).isNone
  rw [← List.countP_eq_length_filter, listOf, hperm, List.countP_map]
  rfl

/-- The newest object is the last one of the list. -/
theorem getLast?_listOf {e : Instant × String} : (s.listOf names).entries.getLast? = some e ↔
    s.Found names e.1 e.2 ∧ s.IsNewest names e.1 := by
  rw [getLast?_eq_some_iff_greatest (s.listOf names).sorted]
  constructor
  · rintro ⟨he, hle⟩
    have hfound := (mem_listOf h).1 he
    exact ⟨hfound, ⟨_, hfound⟩, fun u key hu => hle _ ((mem_listOf h).2 hu)⟩
  · rintro ⟨hfound, -, hle⟩
    exact ⟨(mem_listOf h).2 hfound, fun d hd => hle _ _ ((mem_listOf h).1 hd)⟩

theorem lastModified_listOf : (s.listOf names).times.getLast? = some t ↔ s.IsNewest names t := by
  simp only [Timeline.times, List.getLast?_map, Option.map_eq_some_iff, getLast?_listOf h]
  constructor
  · rintro ⟨e, ⟨-, he⟩, rfl⟩
    exact he
  · intro ht
    obtain ⟨key, hkey⟩ := ht.1
    exact ⟨(t, key), ⟨hkey, ht⟩, rfl⟩

/-- The two newest objects are the last two of the list. -/
theorem times_listOf (ht : s.IsNewest names t) (hu : s.IsNewestBefore names t u) :
    ∃ front, (s.listOf names).times = front ++ [u, t] := by
  obtain ⟨key, hkey⟩ := ht.1
  obtain ⟨⟨hut, key', hkey'⟩, hle⟩ := hu
  have hlast : (s.listOf names).entries.getLast? = some (t, key) :=
    (getLast?_listOf h).2 ⟨hkey, ht⟩
  obtain ⟨front, hfront⟩ := List.getLast?_eq_some_iff.1 hlast
  have hsorted := (s.listOf names).sorted
  rw [hfront, List.pairwise_append] at hsorted
  obtain ⟨hsorted, -, hbefore⟩ := hsorted
  have hmem : (u, key') ∈ front := by
    have hu : (u, key') ∈ (s.listOf names).entries := (mem_listOf h).2 hkey'
    rw [hfront, List.mem_append, List.mem_singleton] at hu
    refine hu.resolve_right fun he => ?_
    exact Instant.ne_of_lt hut (congrArg Prod.fst he)
  have hsecond : front.getLast? = some (u, key') := by
    refine (getLast?_eq_some_iff_greatest hsorted).2 ⟨hmem, fun d hd => ?_⟩
    have hfound : d ∈ (s.listOf names).entries := by
      rw [hfront]
      exact List.mem_append_left _ hd
    exact hle _ _ ((mem_listOf h).1 hfound) (hbefore d hd _ (List.mem_singleton_self _))
  obtain ⟨rest, rfl⟩ := List.getLast?_eq_some_iff.1 hsecond
  refine ⟨rest.map Prod.fst, ?_⟩
  simp [Timeline.times, hfront]

end

/-- The span to a later whole second is not negative, even where one of them is a leap second. -/
theorem since_nonneg (hu : u.nanos ≤ nanosPerSecond) (h : u < t) : 0 ≤ t.since u := by
  simp only [Instant.since, Instant.stamp]
  rcases Instant.lt_def.1 h with hlt | ⟨heq, hlt⟩
  · rw [nanosPerSecond] at *
    split
    · omega
    · split <;> omega
  · -- within one second of the clock no leap second is over
    have hday : t.secondOfDay = u.secondOfDay := by rw [Instant.secondOfDay, ← heq]; rfl
    rw [hday, if_neg (by omega), if_neg (by omega), heq]
    omega

theorem newestPeriod_of_append {front : List Instant} (h : 0 ≤ t.since u) :
    newestPeriod (front ++ [u, t]) = some ⟨(t.since u).toNat⟩ := by
  simp [newestPeriod, h]

theorem newestPeriod_of_length {times : List Instant} (h : times.length < 2) :
    newestPeriod times = none := by
  match times, h with
  | [], _ => rfl
  | [t], _ => rfl

theorem findKey_takeListing (h : s.Distinct names) :
    (s.takeListing names).1.findKey t = some key ↔
      ∃ u, s.Found names u key ∧ u ≤ t ∧ ∀ v k, s.Found names v k → v ≤ t → v ≤ u := by
  show (s.listOf names).atOrBefore t = some key ↔ _
  rw [Timeline.atOrBefore_eq_some_iff]
  simp only [mem_listOf h, Prod.forall]

theorem findKey_of_found (h : s.Distinct names) (hkey : s.Found names t key) :
    (s.takeListing names).1.findKey t = some key :=
  (findKey_takeListing h).2 ⟨t, hkey, Instant.le_refl t, fun _ _ _ hle => hle⟩

theorem latestKey_takeListing (h : s.Distinct names) :
    (s.takeListing names).1.latestKey = some key ↔
      ∃ t, (s.takeListing names).1.lastModified = some t ∧ s.Found names t key := by
  show (s.listOf names).latest = some key ↔ ∃ t, (s.listOf names).times.getLast? = some t ∧ _
  simp only [Timeline.latest_eq_some_iff, lastModified_listOf h, mem_listOf h, Prod.forall]
  constructor
  · rintro ⟨t, hkey, hle⟩
    exact ⟨t, ⟨⟨key, hkey⟩, hle⟩, hkey⟩
  · rintro ⟨t, ⟨-, hle⟩, hkey⟩
    exact ⟨t, hkey, hle⟩

/-- **What a source knows once it has read names of which no two carry one time.** -/
theorem lists_takeListing (h : s.Distinct names) :
    s.Lists names (s.takeListing names).1 (s.takeListing names).2 where
  objects t key := get?_listOf h
  counted := ⟨s.eligible names, nodup_eligible h.1, fun t key => mem_eligible, size_listOf h,
    fresh_listOf h⟩
  lastModified t := lastModified_listOf h
  period t u ht hu := by
    obtain ⟨front, hfront⟩ := times_listOf h ht hu
    obtain ⟨hut, key, hkey⟩ := hu.1
    have hspan : 0 ≤ t.since u := since_nonneg hkey.2.nanos_le hut
    have hperiod : (s.takeListing names).1.updatePeriod = some ⟨(t.since u).toNat⟩ := by
      show newestPeriod (s.listOf names).times = _
      rw [hfront, newestPeriod_of_append hspan]
    simp only [outlook, hperiod, Option.getD_some]
    exact Int.toNat_of_nonneg hspan
  few hlt := by
    have hlength : (s.listOf names).times.length < 2 := by
      rw [Timeline.times, List.length_map]
      exact hlt
    have hperiod : (s.takeListing names).1.updatePeriod = none := newestPeriod_of_length hlength
    simp only [outlook, hperiod, Option.getD_none]
  findKey t key := findKey_takeListing h
  latestKey key := latestKey_takeListing h
  listed t key hkey := by
    have htime : s.keyTime key = some t := keyTime_eq_some_iff.2 hkey.2
    exact ⟨htime, findKey_of_found h hkey⟩
  announced t ht := by
    obtain ⟨key, hkey, ht⟩ := Option.bind_eq_some_iff.1 ht
    obtain ⟨u, hu, hfound⟩ := (latestKey_takeListing h).1 hkey
    -- the time in the key is that of the list
    have hkeyTime : s.keyTime key = some t := ht
    rw [keyTime_eq_some_iff.2 hfound.2] at hkeyTime
    obtain rfl := Option.some.inj hkeyTime
    exact ⟨hu, (findKey_of_found h hfound).trans hkey.symm⟩

/-- **Looking for new objects.** Whatever a source knew before: once it has read a directory in
which no two objects have one time, it knows what `Lists` says. A directory that does not exist is
an empty one, and one that cannot be read leaves everything as it was. -/
theorem refresh_lists (s : DirectorySource) :
    (∀ listing : List (String × Bool), s.Distinct (listing.map Prod.fst) →
      ∃ s' news, s.refresh (.ok listing) = (s', .ok news) ∧
        s.Lists (listing.map Prod.fst) s' news) ∧
    s.refresh (.error .notFound) = s.refresh (.ok []) ∧
    ∀ e, e ≠ .notFound → s.refresh (.error e) = (s, .error (.io s.objectDir e)) := by
  refine ⟨fun listing h => ⟨_, _, rfl, lists_takeListing h⟩, rfl, ?_⟩
  intro e he
  cases e with
  | notFound => exact absurd rfl he
  | _ => rfl

/-- A directory with three volumes of a site, one of them in a directory's name, with one of another
site and with a file that is no volume. -/
def volumesOfKlsx : List (String × Bool) :=
  [("KLSX20240501_120500_V06", false), ("klsx20240501_120000_V06", false), ("README", false),
    ("KTLX20240501_120700_V06", false), ("Klsx20240501_115960_V06", true)]

/-- Three volumes are found, one of them at a leap second, and the newest is found at its time. -/
theorem lists_volumesOfKlsx :
    let s := level2 ⟨"data"⟩ "KLSX"
    s.Distinct (volumesOfKlsx.map Prod.fst) ∧ ∃ s' news,
      s.refresh (.ok volumesOfKlsx) = (s', .ok news) ∧ news = ⟨3, 3⟩ ∧
      s.Lists (volumesOfKlsx.map Prod.fst) s' news ∧
      s'.lastModified = some ⟨1714565100, 0⟩ ∧
      s'.findKey ⟨1714565100, 0⟩ = some "KLSX20240501_120500_V06" ∧
      s.refresh (.error .notDirectory) = (s, .error (.io s.objectDir .notDirectory)) := by
  intro s
  have hd : s.Distinct (volumesOfKlsx.map Prod.fst) := by
    refine distinct_of_nodup (by decide) ?_
    decide +kernel
  obtain ⟨hok, -, hfailed⟩ := refresh_lists s
  obtain ⟨s', news, hrefresh, hlists⟩ := hok _ hd
  have hnews : (s.refresh (.ok volumesOfKlsx)).2 = .ok ⟨3, 3⟩ := by
    decide +kernel
  have hmod : (s.refresh (.ok volumesOfKlsx)).1.lastModified = some ⟨1714565100, 0⟩ := by
    decide +kernel
  have hkey : (s.refresh (.ok volumesOfKlsx)).1.findKey ⟨1714565100, 0⟩ =
      some "KLSX20240501_120500_V06" := by
    decide +kernel
  rw [hrefresh] at hnews hmod hkey
  exact ⟨hd, s', news, hrefresh, Except.ok.inj hnews, hlists, hmod, hkey, hfailed _ nofun⟩

end DirectorySource

end RadarFeed
