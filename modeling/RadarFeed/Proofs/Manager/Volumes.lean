import RadarFeed.Manager
import RadarFeed.Proofs.Cache.Lookup
import RadarFeed.Proofs.Time.Truncation
import RadarFeed.Proofs.Volume.Selection

/-!
Which volume a manager shows for a time.

A manager keeps the first volume of each second (`level2Cache_storeAll`). For a time it shows the
last one that it keeps, counted by whole seconds, unless that volume started later within the very
second of the time (`sameSecond_of_truncate_le`); then it shows nothing, rather than an earlier
volume. What it shows of a cut had started by then, too: `nothing_from_the_future`.
-/

namespace RadarFeed

theorem RadarFile.eq_of_volume? {file : RadarFile} {v : Volume} (h : file.volume? = some v) :
    file = .level2 v := by
  cases file with
  | level2 w => exact congrArg RadarFile.level2 (Option.some.inj h)
  | level3 p => cases h

namespace Manager

variable {m : Manager} {rs : List Record} {r : Record} {t : Instant}

/-- The manager after records have been stored with it one by one. -/
def storeAll (m : Manager) (rs : List Record) : Manager :=
  rs.foldl store m

/-- The records of volumes. -/
def volumeRecords (volumes : List (Nat × Volume)) : List Record :=
  volumes.map fun e => .ofFile e.1 (.level2 e.2)

theorem level2Cache_storeAll (hg : ∀ r ∈ rs, r.group = .level2) :
    (m.storeAll rs).level2Cache = m.level2Cache.insertAll rs := by
  induction rs generalizing m with
  | nil => rfl
  | cons r rs ih =>
    have hr : (m.store r).level2Cache = m.level2Cache.insert r := by
      unfold store
      rw [hg r List.mem_cons_self]
    show ((m.store r).storeAll rs).level2Cache = _
    rw [ih fun x hx => hg x (List.mem_cons_of_mem _ hx), hr]
    rfl

theorem group_of_mem_volumeRecords {volumes : List (Nat × Volume)} (h : r ∈ volumeRecords volumes) :
    r.group = .level2 := by
  obtain ⟨e, -, rfl⟩ := List.mem_map.1 h
  rfl

theorem hadStarted_iff {volumes : List (Nat × Volume)} (h : r ∈ volumeRecords volumes) :
    hadStarted t r = true ↔ r.file.time ≤ t := by
  obtain ⟨e, -, rfl⟩ := List.mem_map.1 h
  show decide (e.2.header.start ≤ t) = true ↔ e.2.header.start ≤ t
  exact decide_eq_true_iff

theorem time_of_mem_volumeRecords {volumes : List (Nat × Volume)} (h : r ∈ volumeRecords volumes) :
    r.time = r.file.time.truncate := by
  obtain ⟨e, -, rfl⟩ := List.mem_map.1 h
  rfl

theorem level2Record_eq_some_iff {m : Manager} :
    m.level2Record (some t) = some r ↔
      m.level2Cache.atOrBefore t = some r ∧ hadStarted t r = true :=
  Option.filter_eq_some_iff

theorem level2Record_eq_none_iff {m : Manager} :
    m.level2Record (some t) = none ↔
      m.level2Cache.atOrBefore t = none ∨
        ∃ r, m.level2Cache.atOrBefore t = some r ∧ hadStarted t r = false := by
  show (m.level2Cache.atOrBefore t).filter _ = none ↔ _
  cases m.level2Cache.atOrBefore t <;> simp

/-- **Nothing is shown from the future, and nothing is hidden without cause.** Whatever volumes have
been stored, for a time a manager shows the one that it keeps at the last whole second not after it,
if that volume had started by then. It shows none only if all that was stored is later, or if that
volume started later within the very second of the time. Without a time it shows the last one. A
scan for a time is cut from the volume that is shown, and its cut had started by then. -/
theorem nothing_from_the_future (settings : Settings) (radarId : String) (site : Site)
    (volumes : List (Nat × Volume)) :
    let rs := volumeRecords volumes
    let m := (new settings radarId site).storeAll rs
    (∀ t r, m.level2Record (some t) = some r ↔ Cache.IsLast rs t r ∧ r.file.time ≤ t) ∧
    (∀ t, m.level2Record (some t) = none ↔ (∀ x ∈ rs, ¬ x.time ≤ t) ∨
      ∃ r, Cache.IsLast rs t r ∧ t < r.file.time ∧ r.time.SameSecond t ∧ t.SameSecond r.file.time) ∧
    (∀ r, m.level2Record none = some r ↔
      Cache.IsFirst rs r ∧ ∀ x ∈ rs, x.time ≤ r.time) ∧
    ∀ moment elevation t s, m.scan moment elevation (some t) = some s →
      ∃ r v c, m.level2Record (some t) = some r ∧ r.file = .level2 v ∧
        ElevationScan.nearestCut elevation (some t) (v.cutsOf moment) = some c ∧
        c ∈ v.cutsOf moment ∧ c.start ≤ t ∧
        s = ⟨moment, c.elevation, ElevationScan.elevationsOf (v.cutsOf moment), c.radials⟩ := by
  intro rs m
  have hm : m.level2Cache = Cache.empty.insertAll rs :=
    level2Cache_storeAll fun r hr => group_of_mem_volumeRecords hr
  refine ⟨fun t r => ?_, fun t => ?_, fun r => ?_, ?_⟩
  · rw [level2Record_eq_some_iff, hm, Cache.atOrBefore_insertAll]
    constructor
    · rintro ⟨h, hs⟩
      exact ⟨h, (hadStarted_iff h.first.mem).1 hs⟩
    · rintro ⟨h, hs⟩
      exact ⟨h, (hadStarted_iff h.first.mem).2 hs⟩
  · rw [level2Record_eq_none_iff, hm, Cache.atOrBefore_insertAll_none]
    refine or_congr_right (exists_congr fun r => ?_)
    rw [Cache.atOrBefore_insertAll]
    constructor
    · rintro ⟨h, hs⟩
      have hn : ¬ r.file.time ≤ t := fun hle => by
        rw [(hadStarted_iff h.first.mem).2 hle] at hs
        cases hs
      have hk : r.time = r.file.time.truncate := time_of_mem_volumeRecords h.first.mem
      have hpast : r.file.time.truncate ≤ t := hk ▸ h.past
      have hsame := Instant.sameSecond_of_truncate_le hpast hn
      rw [← hk] at hsame
      exact ⟨h, Instant.not_le.1 hn, hsame⟩
    · rintro ⟨h, hlt, -⟩
      refine ⟨h, Bool.eq_false_iff.2 fun hs => ?_⟩
      exact Instant.not_le.2 hlt ((hadStarted_iff h.first.mem).1 hs)
  · show m.level2Cache.latest = some r ↔ _
    rw [hm, Cache.latest_insertAll]
  · intro moment elevation t s hs
    simp only [scan, Option.bind_eq_bind, Option.bind_eq_some_iff] at hs
    obtain ⟨r, hr, v, hv, hs⟩ := hs
    obtain ⟨c, hc, rfl⟩ := VolumeOf.scan_eq_some hs
    obtain ⟨hmem, hbegun⟩ := ElevationScan.of_nearestCut hc
    have hfile : r.file = .level2 v := RadarFile.eq_of_volume? hv
    exact ⟨r, v, c, hr, hfile, hc, hmem, hbegun t rfl, rfl⟩

end Manager

end RadarFeed
