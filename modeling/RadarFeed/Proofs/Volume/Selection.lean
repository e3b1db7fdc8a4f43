import RadarFeed.Volume.Scan

/-!
The cut that a scan shows.

The cut that is taken is one of the moment's cuts, and it had started by the time asked for
(`of_nearestCut`); a scan shows its elevation and its radials (`scan_eq_some`).
-/

namespace RadarFeed

namespace ElevationScan

variable {α : Type} [Elevation α] {cuts : List (Cut α)} {c : Cut α} {time : Option Instant}

omit [Elevation α] in
theorem mem_of_latest? (h : latest? cuts = some c) : c ∈ cuts := by
  -- the best of what has been seen is the first cut or a later one
  have best : ∀ (s : List (Cut α)) (first : Cut α),
      s.foldl (fun best d => if best.start ≤ d.start then d else best) first ∈ first :: s := by
    intro s
    induction s with
    | nil => simp
    | cons d s ih =>
      intro first
      rw [List.foldl_cons]
      have hd := ih (if first.start ≤ d.start then d else first)
      rcases List.mem_cons.1 hd with hd | hd
      · rw [hd]
        split <;> simp
      · exact List.mem_cons_of_mem _ (List.mem_cons_of_mem _ hd)
  cases cuts with
  | nil => cases h
  | cons first s =>
    rw [← Option.some.inj h]
    exact best s first

omit [Elevation α] in
theorem mem_started :
    c ∈ started time cuts ↔ c ∈ cuts ∧ ∀ t, time = some t → c.start ≤ t := by
  unfold started
  rw [List.mem_filter]
  cases time <;> simp

/-- The cut nearest to an elevation is one of the cuts, and it had started. -/
theorem of_nearestCut {elevation : α} (h : nearestCut elevation time cuts = some c) :
    c ∈ cuts ∧ ∀ t, time = some t → c.start ≤ t := by
  simp only [nearestCut, Option.bind_eq_bind, Option.bind_eq_some_iff] at h
  obtain ⟨nearest, -, hc⟩ := h
  have hmem := (List.mem_filter.1 (mem_of_latest? hc)).1
  exact mem_started.1 hmem

end ElevationScan

section

variable {α : Type} [Elevation α] {v : VolumeOf α} {moment : Moment} {elevation : α}
  {time : Option Instant}

theorem VolumeOf.scan_eq_map : v.scan moment elevation time =
    (ElevationScan.nearestCut elevation time (v.cutsOf moment)).map fun c =>
      ⟨moment, c.elevation, ElevationScan.elevationsOf (v.cutsOf moment), c.radials⟩ := by
  simp only [scan, Option.map_eq_bind]
  rfl

/-- A scan shows the cut nearest to the elevation. -/
theorem VolumeOf.scan_eq_some {s : ElevationScan α}
    (h : v.scan moment elevation time = some s) :
    ∃ c, ElevationScan.nearestCut elevation time (v.cutsOf moment) = some c ∧
      s = ⟨moment, c.elevation, ElevationScan.elevationsOf (v.cutsOf moment), c.radials⟩ := by
  rw [scan_eq_map] at h
  obtain ⟨c, hc, hs⟩ := Option.map_eq_some_iff.1 h
  exact ⟨c, hc, hs.symm⟩

end

end RadarFeed
