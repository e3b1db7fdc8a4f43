import RadarFeed.Proofs.Source.Listing

/-!
The order of the names in a listing.

The times of the objects, and with them all counts and spans, do not depend on the order in which
names are listed (`times_listOf_congr`). The key found for a time does: of the names that carry it,
the one listed last is kept, and every one of them comes last in some order (`get?_listOf_concat`).
So the order is irrelevant to an answer exactly where one name alone carries the time that decides
it (`order_irrelevant_iff`).
-/

namespace RadarFeed

/-- What holds of the values of a list in every order holds of every order of the values. -/
theorem forall_perm_map_iff {α β : Type} {l : List α} (f : α → β) (P : List β → Prop) :
    (∀ l' : List α, l'.Perm l → P (l'.map f)) ↔ ∀ m, m.Perm (l.map f) → P m := by
  constructor
  · intro h m hm
    have hcomp : Relation.Comp (fun m l' => m = List.map f l') List.Perm m l := by
      rwa [List.eq_map_comp_perm]
    obtain ⟨l', rfl, hl'⟩ := hcomp
    exact h l' hl'
  · intro h l' hl'
    exact h _ (hl'.map f)

namespace Timeline

variable {α β : Type}

/-- Timelines at the same instants have them in the same order. -/
theorem times_congr {l : Timeline α} {l' : Timeline β} (h : ∀ t, t ∈ l.times ↔ t ∈ l'.times) :
    l.times = l'.times := by
  have hperm : l.times.Perm l'.times :=
    (List.perm_ext_iff_of_nodup (nodup_times l) (nodup_times l')).2 h
  have hsorted : l.times.Pairwise (· < ·) := List.pairwise_map.2 l.sorted
  have hsorted' : l'.times.Pairwise (· < ·) := List.pairwise_map.2 l'.sorted
  refine hperm.eq_of_pairwise ?_ hsorted hsorted'
  intro a b _ _ hab hba
  exact absurd (Instant.lt_trans hab hba) (Instant.lt_irrefl a)

end Timeline

namespace DirectorySource

variable {s : DirectorySource} {names names' : List String} {key : String} {t u : Instant}

/-- The time of the newest object among names that is not after `t`. -/
def IsNewestUpTo (s : DirectorySource) (names : List String) (t u : Instant) : Prop :=
  (u ≤ t ∧ ∃ key, s.Found names u key) ∧ ∀ v key, s.Found names v key → v ≤ t → v ≤ u

/-- No two of the names are objects of the time `u`. -/
def Sole (s : DirectorySource) (names : List String) (u : Instant) : Prop :=
  ∀ key key', s.Found names u key → s.Found names u key' → key = key'

theorem found_congr (h : names'.Perm names) : s.Found names' t key ↔ s.Found names t key := by
  rw [Found, Found, h.mem_iff]

/-! ## The list of objects in any order -/

theorem mem_times_listOf : t ∈ (s.listOf names).times ↔ ∃ key, s.Found names t key := by
  rw [listOf, Timeline.mem_times_ofList, List.mem_map]
  constructor
  · rintro ⟨e, he, rfl⟩
    exact ⟨e.2, mem_eligible.1 he⟩
  · rintro ⟨key, hkey⟩
    exact ⟨_, mem_eligible.2 hkey, rfl⟩

theorem times_listOf_congr (h : names'.Perm names) :
    (s.listOf names').times = (s.listOf names).times :=
  Timeline.times_congr fun t => by simp only [mem_times_listOf, found_congr h]

/-- What is kept at a time is one of the objects of that time. -/
theorem found_of_get? (h : (s.listOf names).get? u = some key) : s.Found names u key := by
  rw [listOf, Timeline.get?_ofList] at h
  obtain ⟨e, he, rfl⟩ := Option.map_eq_some_iff.1 h
  obtain rfl : e.1 = u := key_of_find? he
  exact mem_eligible.1 (List.mem_reverse.1 (List.mem_of_find?_eq_some he))

theorem exists_get?_of_found (h : s.Found names u key) :
    ∃ key', (s.listOf names).get? u = some key' :=
  Timeline.mem_times_iff.1 (mem_times_listOf.2 ⟨key, h⟩)

/-- The object that is listed last is kept. -/
theorem get?_listOf_concat (h : s.IsObject key u) :
    (s.listOf (names ++ [key])).get? u = some key := by
  have heligible : s.eligible (names ++ [key]) = s.eligible names ++ [(u, key)] := by
    simp [eligible, keyTime_eq_some_iff.2 h]
  rw [listOf, heligible, Timeline.get?_ofList, List.reverse_append]
  simp

/-- What is kept at a time is the same in every order exactly if one object alone has it. -/
theorem get?_listOf_perm_iff :
    (∀ names', names'.Perm names → (s.listOf names').get? u = (s.listOf names).get? u) ↔
      s.Sole names u := by
  -- each object of the time is kept in the order in which it comes last
  have kept : ∀ key, s.Found names u key →
      ∃ names', names'.Perm names ∧ (s.listOf names').get? u = some key := by
    intro key hkey
    refine ⟨names.erase key ++ [key], ?_, get?_listOf_concat hkey.2⟩
    exact (List.perm_append_singleton _ _).trans (List.perm_cons_erase hkey.1).symm
  constructor
  · intro h key key' hkey hkey'
    obtain ⟨names₁, hperm₁, h₁⟩ := kept key hkey
    obtain ⟨names₂, hperm₂, h₂⟩ := kept key' hkey'
    rw [h names₁ hperm₁] at h₁
    rw [h names₂ hperm₂, h₁] at h₂
    exact Option.some.inj h₂
  · intro hsole names' hperm
    cases hkey : (s.listOf names).get? u with
    | none =>
      cases hkey' : (s.listOf names').get? u with
      | none => rfl
      | some key' =>
        have hfound := (found_congr hperm).1 (found_of_get? hkey')
        obtain ⟨key, h⟩ := exists_get?_of_found hfound
        rw [hkey] at h
        cases h
    | some key =>
      have hfound := found_of_get? hkey
      obtain ⟨key', hkey'⟩ := exists_get?_of_found ((found_congr hperm).2 hfound)
      rw [hkey', hsole key' key ((found_congr hperm).1 (found_of_get? hkey')) hfound]

/-! ## Answers -/

/-- The times in the list are those of the objects. -/
theorem forall_mem_listOf (P : Instant → Prop) :
    (∀ e ∈ (s.listOf names).entries, P e.1) ↔ ∀ u key, s.Found names u key → P u := by
  have htimes : (∀ e ∈ (s.listOf names).entries, P e.1) ↔
      ∀ u ∈ (s.listOf names).times, P u := by
    simp [Timeline.times]
  simp only [htimes, mem_times_listOf, forall_exists_index]

/-- The key found for a time is the one kept at the newest time up to then. -/
theorem findKey_eq_some_iff : (s.takeListing names).1.findKey t = some key ↔
    ∃ u, s.IsNewestUpTo names t u ∧ (s.listOf names).get? u = some key := by
  show (s.listOf names).atOrBefore t = some key ↔ _
  simp only [Timeline.atOrBefore_eq_some_iff, ← Timeline.get?_eq_some_iff]
  refine exists_congr fun u => ?_
  rw [forall_mem_listOf fun v => v ≤ t → v ≤ u]
  constructor
  · rintro ⟨hkey, hle, hlast⟩
    exact ⟨⟨⟨hle, key, found_of_get? hkey⟩, hlast⟩, hkey⟩
  · rintro ⟨⟨⟨hle, -⟩, hlast⟩, hkey⟩
    exact ⟨hkey, hle, hlast⟩

/-- The last key is the one kept at the newest time. -/
theorem latestKey_eq_some_iff : (s.takeListing names).1.latestKey = some key ↔
    ∃ u, s.IsNewest names u ∧ (s.listOf names).get? u = some key := by
  show (s.listOf names).latest = some key ↔ _
  simp only [Timeline.latest_eq_some_iff, ← Timeline.get?_eq_some_iff]
  refine exists_congr fun u => ?_
  rw [forall_mem_listOf fun v => v ≤ u]
  constructor
  · rintro ⟨hkey, hlast⟩
    exact ⟨⟨⟨key, found_of_get? hkey⟩, hlast⟩, hkey⟩
  · rintro ⟨⟨-, hlast⟩, hkey⟩
    exact ⟨hkey, hlast⟩

theorem IsNewestUpTo.unique {v : Instant} (hu : s.IsNewestUpTo names t u)
    (hv : s.IsNewestUpTo names t v) : u = v := by
  obtain ⟨⟨hut, key, hkey⟩, hulast⟩ := hu
  obtain ⟨⟨hvt, key', hkey'⟩, hvlast⟩ := hv
  exact Instant.le_antisymm (hvlast u key hkey hut) (hulast v key' hkey' hvt)

theorem IsNewest.unique {v : Instant} (hu : s.IsNewest names u) (hv : s.IsNewest names v) :
    u = v := by
  obtain ⟨⟨key, hkey⟩, hulast⟩ := hu
  obtain ⟨⟨key', hkey'⟩, hvlast⟩ := hv
  exact Instant.le_antisymm (hvlast u key hkey) (hulast v key' hkey')

/-- An answer that is the key kept at a time is the same in every order exactly if one object alone
has that time. -/
theorem answer_perm_iff {answer : List String → Option String} {Decides : Instant → Prop}
    (hanswer : ∀ names' key, names'.Perm names →
      (answer names' = some key ↔ ∃ u, Decides u ∧ (s.listOf names').get? u = some key))
    (hunique : ∀ u v, Decides u → Decides v → u = v) :
    (∀ names', names'.Perm names → answer names' = answer names) ↔
      ∀ u, Decides u → s.Sole names u := by
  constructor
  · intro h u hu
    have hkept : ∀ names' key, names'.Perm names →
        (answer names' = some key ↔ (s.listOf names').get? u = some key) := by
      intro names' key hperm
      rw [hanswer names' key hperm]
      constructor
      · rintro ⟨v, hv, hkey⟩
        rwa [hunique u v hu hv]
      · intro hkey
        exact ⟨u, hu, hkey⟩
    refine get?_listOf_perm_iff.1 fun names' hperm => Option.ext fun key => ?_
    rw [← hkept names' key hperm, ← hkept names key (.refl names), h names' hperm]
  · intro h names' hperm
    refine Option.ext fun key => ?_
    rw [hanswer names' key hperm, hanswer names key (.refl names)]
    refine exists_congr fun u => and_congr_right fun hu => ?_
    rw [get?_listOf_perm_iff.2 (h u hu) names' hperm]

theorem findKey_perm_iff : (∀ names', names'.Perm names →
      (s.takeListing names').1.findKey t = (s.takeListing names).1.findKey t) ↔
    ∀ u, s.IsNewestUpTo names t u → s.Sole names u := by
  refine answer_perm_iff (fun names' key hperm => ?_) fun u v => IsNewestUpTo.unique
  simp only [findKey_eq_some_iff, IsNewestUpTo, found_congr hperm]

theorem latestKey_perm_iff : (∀ names', names'.Perm names →
      (s.takeListing names').1.latestKey = (s.takeListing names).1.latestKey) ↔
    ∀ u, s.IsNewest names u → s.Sole names u := by
  refine answer_perm_iff (fun names' key hperm => ?_) fun u v => IsNewest.unique
  simp only [latestKey_eq_some_iff, IsNewest, found_congr hperm]

/-- What is counted, and the times that are announced, are the same in every order. -/
theorem takeListing_perm (h : names'.Perm names) :
    (s.takeListing names').2 = (s.takeListing names).2 ∧
    (s.takeListing names').1.lastModified = (s.takeListing names).1.lastModified ∧
    (s.takeListing names').1.updatePeriod = (s.takeListing names).1.updatePeriod := by
  have htimes : (s.listOf names').times = (s.listOf names).times := times_listOf_congr h
  have hsize : (s.listOf names').size = (s.listOf names).size := by
    simpa [Timeline.times, Timeline.size] using congrArg List.length htimes
  refine ⟨?_, congrArg List.getLast? htimes, congrArg newestPeriod htimes⟩
  show News.mk _ (s.listOf names').size = News.mk _ (s.listOf names).size
  rw [hsize]
  exact congrArg (News.mk · _) (congrArg (fun times : List Instant =>
    (times.filter fun t => (s.objects.get? t).isNone).length) htimes)

/-- **The order of a directory.** Looking for new objects, a source counts the same objects and
announces the same times whatever order the directory lists its names in. The key found for a time
is the same in every order exactly if there is one object alone of the newest time up to then, and
the last key exactly if there is one alone of the newest time. -/
theorem order_irrelevant_iff (s : DirectorySource) (listing : List (String × Bool)) :
    let names := listing.map Prod.fst
    let after (l : List (String × Bool)) : DirectorySource := (s.refresh (.ok l)).1
    (∀ listing', listing'.Perm listing →
      (s.refresh (.ok listing')).2 = (s.refresh (.ok listing)).2 ∧
      (after listing').outlook.lastModified = (after listing).outlook.lastModified ∧
      (after listing').outlook.updatePeriod = (after listing).outlook.updatePeriod) ∧
    (∀ t, (∀ listing', listing'.Perm listing →
        (after listing').findKey t = (after listing).findKey t) ↔
      ∀ u, s.IsNewestUpTo names t u → s.Sole names u) ∧
    ((∀ listing', listing'.Perm listing → (after listing').latestKey = (after listing).latestKey) ↔
      ∀ u, s.IsNewest names u → s.Sole names u) := by
  intro names after
  refine ⟨fun listing' hperm => ?_, fun t => ?_, ?_⟩
  · obtain ⟨hnews, hlast, hperiod⟩ := takeListing_perm (s := s) (hperm.map Prod.fst)
    exact ⟨congrArg Except.ok hnews, hlast, congrArg (Option.getD · defaultUpdatePeriod) hperiod⟩
  · rw [← findKey_perm_iff]
    exact forall_perm_map_iff Prod.fst fun names' =>
      (s.takeListing names').1.findKey t = (s.takeListing names).1.findKey t
  · rw [← latestKey_perm_iff]
    exact forall_perm_map_iff Prod.fst fun names' =>
      (s.takeListing names').1.latestKey = (s.takeListing names).1.latestKey

/-- Two volumes of one time. -/
def twoOfOneTime : List (String × Bool) :=
  [("KLSX20240501_120000_V06_MDM", false), ("KLSX20240501_120000_V06", false)]

/-- Of two volumes of one time the one is the last in one order, and the other in the other. -/
theorem latestKey_of_either_order :
    ¬ ∀ listing', listing'.Perm twoOfOneTime →
      ((level2 ⟨"data"⟩ "KLSX").refresh (.ok listing')).1.latestKey =
        ((level2 ⟨"data"⟩ "KLSX").refresh (.ok twoOfOneTime)).1.latestKey := by
  intro h
  have hsame := h twoOfOneTime.reverse (List.reverse_perm twoOfOneTime)
  have hmdm : ((level2 ⟨"data"⟩ "KLSX").refresh (.ok twoOfOneTime.reverse)).1.latestKey =
      some "KLSX20240501_120000_V06_MDM" := by
    decide +kernel
  have hplain : ((level2 ⟨"data"⟩ "KLSX").refresh (.ok twoOfOneTime)).1.latestKey =
      some "KLSX20240501_120000_V06" := by
    decide +kernel
  rw [hmdm, hplain] at hsame
  exact absurd hsame (by simp)

end DirectorySource

end RadarFeed
