import RadarFeed.Proofs.Volume.Nearest

/-!
The elevations of a volume, with exact angles.

A list of elevations is thinned out from the least one up: one that is not clear of the last one
kept, by the tolerance, is dropped. What is left is said by `Lists`, without the order in which
anything is looked at, and there is no more than one such list (`Lists.unique`); so neither the order
of the cuts nor repeated elevations matter (`elevationsOf_congr`).
-/

namespace RadarFeed

namespace ElevationScan

variable {all all' s s' : List ℚ} {x y last : ℚ}

/-- `s` lists the elevations `all`: in ascending order, each clear of the one before it by the
tolerance, and each elevation less than the tolerance above one that is listed. -/
structure Lists (all s : List ℚ) : Prop where
  spaced : s.Pairwise fun x y => x + tolerance ≤ y
  mem : ∀ x ∈ s, x ∈ all
  covers : ∀ y ∈ all, ∃ x ∈ s, x ≤ y ∧ y < x + tolerance

theorem tolerance_pos : 0 < tolerance := by
  norm_num [tolerance]

namespace Lists

theorem ascending (h : Lists all s) : s.Pairwise (· < ·) :=
  h.spaced.imp fun hxy => by linarith [tolerance_pos]

theorem nil : Lists [] [] :=
  ⟨.nil, fun _ hx => hx, by simp⟩

/-- The order and the number of elevations do not matter. -/
theorem congr (h : Lists all s) (hall : ∀ x, x ∈ all ↔ x ∈ all') : Lists all' s where
  spaced := h.spaced
  mem x hx := (hall x).1 (h.mem x hx)
  covers y hy := h.covers y ((hall y).2 hy)

/-- The first elevation listed is the least of all. -/
theorem head_le (h : Lists all (x :: s)) (hy : y ∈ all) : x ≤ y := by
  obtain ⟨z, hz, hzy, -⟩ := h.covers y hy
  rcases List.mem_cons.1 hz with rfl | hz
  · exact hzy
  · have := List.rel_of_pairwise_cons h.ascending hz
    linarith

/-- The others list the elevations that are clear of the first one. -/
theorem tail (h : Lists all (x :: s)) :
    Lists (all.filter fun y => decide (x + tolerance ≤ y)) s where
  spaced := h.spaced.of_cons
  mem y hy := by
    rw [List.mem_filter, decide_eq_true_eq]
    exact ⟨h.mem y (List.mem_cons_of_mem x hy), List.rel_of_pairwise_cons h.spaced hy⟩
  covers y hy := by
    rw [List.mem_filter, decide_eq_true_eq] at hy
    obtain ⟨z, hz, hzy, hyz⟩ := h.covers y hy.1
    rcases List.mem_cons.1 hz with rfl | hz
    · exact absurd hyz (not_lt.2 hy.2)
    · exact ⟨z, hz, hzy, hyz⟩

theorem unique (h : Lists all s) (h' : Lists all s') : s = s' := by
  induction s generalizing all s' with
  | nil =>
    cases s' with
    | nil => rfl
    | cons x' s' =>
      obtain ⟨z, hz, -⟩ := h.covers x' (h'.mem x' List.mem_cons_self)
      cases hz
  | cons x s ih =>
    cases s' with
    | nil =>
      obtain ⟨z, hz, -⟩ := h'.covers x (h.mem x List.mem_cons_self)
      cases hz
    | cons x' s' =>
      obtain rfl : x = x' := le_antisymm (h.head_le (h'.mem x' List.mem_cons_self))
        (h'.head_le (h.mem x List.mem_cons_self))
      rw [ih h.tail h'.tail]

/-- An elevation close above the first one adds nothing to a list. -/
theorem insert (h : Lists (last :: all) (last :: s)) (hle : last ≤ x) (hlt : x < last + tolerance) :
    Lists (last :: x :: all) (last :: s) where
  spaced := h.spaced
  mem y hy := by
    have hy := h.mem y hy
    simp only [List.mem_cons] at hy ⊢
    tauto
  covers y hy := by
    simp only [List.mem_cons] at hy
    rcases hy with rfl | rfl | hy
    · exact h.covers y List.mem_cons_self
    · exact ⟨last, List.mem_cons_self, hle, hlt⟩
    · exact h.covers y (List.mem_cons_of_mem _ hy)

/-- An elevation clear below all others comes first in their list. -/
theorem cons (h : Lists all s) (hall : ∀ y ∈ all, last + tolerance ≤ y) :
    Lists (last :: all) (last :: s) where
  spaced := List.pairwise_cons.2 ⟨fun y hy => hall y (h.mem y hy), h.spaced⟩
  mem := List.cons_subset_cons last h.mem
  covers y hy := by
    rcases List.mem_cons.1 hy with rfl | hy
    · exact ⟨y, List.mem_cons_self, le_rfl, by linarith [tolerance_pos]⟩
    · obtain ⟨z, hz, hzy⟩ := h.covers y hy
      exact ⟨z, List.mem_cons_of_mem _ hz, hzy⟩

end Lists

/-- What is kept of ascending elevations behind the last one kept. -/
theorem lists_go (h : (last :: s).Pairwise (· ≤ ·)) :
    Lists (last :: s) (last :: dropRepeated.go last s) := by
  induction s generalizing last with
  | nil => exact .cons .nil (by simp)
  | cons x s ih =>
    obtain ⟨hlast, hs⟩ := List.pairwise_cons.1 h
    have hle : last ≤ x := hlast x List.mem_cons_self
    have hgap : Elevation.gap x last = x - last := abs_of_nonneg (sub_nonneg.2 hle)
    rw [dropRepeated.go, hgap]
    split
    · rename_i hsmall
      have hlt : x - last < tolerance := of_decide_eq_true hsmall
      have hrest : (last :: s).Pairwise (· ≤ ·) :=
        h.sublist (List.Sublist.cons_cons last (List.sublist_cons_self x s))
      exact (ih hrest).insert hle (by linarith)
    · rename_i hsmall
      have hlt : ¬ x - last < tolerance := fun hlt => hsmall (decide_eq_true hlt)
      refine (ih hs).cons fun y hy => ?_
      have hxy : x ≤ y := by
        rcases List.mem_cons.1 hy with rfl | hy
        · exact le_rfl
        · exact List.rel_of_pairwise_cons hs hy
      linarith

theorem lists_dropRepeated (h : all.Pairwise (· ≤ ·)) : Lists all (dropRepeated all) := by
  cases all with
  | nil => exact .nil
  | cons x s => exact lists_go h

theorem lists_elevationsOf (cuts : List (Cut ℚ)) :
    Lists (cuts.map Cut.elevation) (elevationsOf cuts) := by
  have hle : ∀ x y : ℚ, Elevation.le x y = true ↔ x ≤ y := fun x y => decide_eq_true_iff
  have htrans : ∀ x y z : ℚ, Elevation.le x y = true → Elevation.le y z = true →
      Elevation.le x z = true := by
    intro x y z
    rw [hle, hle, hle]
    exact le_trans
  have htotal : ∀ x y : ℚ, (Elevation.le x y || Elevation.le y x) = true := by
    intro x y
    rw [Bool.or_eq_true, hle, hle]
    exact le_total x y
  have hsorted : ((cuts.map Cut.elevation).mergeSort Elevation.le).Pairwise (· ≤ ·) :=
    (List.pairwise_mergeSort htrans htotal _).imp fun hxy => (hle _ _).1 hxy
  refine (lists_dropRepeated hsorted).congr fun x => ?_
  exact (List.mergeSort_perm _ _).mem_iff

/-- Cuts at the same elevations have one list. -/
theorem elevationsOf_congr {cuts cuts' : List (Cut ℚ)}
    (h : ∀ x, x ∈ cuts.map Cut.elevation ↔ x ∈ cuts'.map Cut.elevation) :
    elevationsOf cuts = elevationsOf cuts' :=
  ((lists_elevationsOf cuts).congr h).unique (lists_elevationsOf cuts')

/-- **The elevations that come with a scan.** They ascend, each clear of the one before it by the
tolerance; each is that of a cut, and each cut of the moment, had it started or not, is less than the
tolerance above one of them. There is no other such list, and with the cuts in any other order it is
the same, whatever else is asked for. -/
theorem elevations_of_scan (v : VolumeOf ℚ) (moment : Moment) (e : ℚ) (time : Option Instant)
    (s : ElevationScan ℚ) (h : v.scan moment e time = some s) :
    s.elevations.Pairwise (· < ·) ∧
    s.elevations.Pairwise (fun x y => tolerance ≤ y - x) ∧
    (∀ x ∈ s.elevations, ∃ c ∈ v.cutsOf moment, c.elevation = x) ∧
    (∀ c ∈ v.cutsOf moment, ∃ x ∈ s.elevations, x ≤ c.elevation ∧ c.elevation - x < tolerance) ∧
    (∀ l, Lists ((v.cutsOf moment).map Cut.elevation) l → l = s.elevations) ∧
    ∀ (w : VolumeOf ℚ) (e' : ℚ) (time' : Option Instant) (s' : ElevationScan ℚ),
      (w.cutsOf moment).Perm (v.cutsOf moment) → w.scan moment e' time' = some s' →
        s'.elevations = s.elevations := by
  obtain ⟨c, -, rfl⟩ := VolumeOf.scan_eq_some h
  have hlists := lists_elevationsOf (v.cutsOf moment)
  refine ⟨hlists.ascending, hlists.spaced.imp fun hxy => by linarith, ?_, ?_, ?_, ?_⟩
  · intro x hx
    exact List.mem_map.1 (hlists.mem x hx)
  · intro c hc
    obtain ⟨x, hx, hle, hlt⟩ := hlists.covers _ (List.mem_map_of_mem hc)
    exact ⟨x, hx, hle, by linarith⟩
  · intro l hl
    exact hl.unique hlists
  · intro w e' time' s' hperm hs'
    obtain ⟨c', -, rfl⟩ := VolumeOf.scan_eq_some hs'
    exact elevationsOf_congr fun x => (hperm.map Cut.elevation).mem_iff

/-- Of elevations of which each is close to the next, 0.5, 0.55, 0.62 and 0.7 degrees, the second
and the last are left out, the last because it is close to the third one, which is kept. -/
theorem elevations_of_chain :
    let cuts : List (Cut ℚ) := [⟨7 / 10, ⟨0, 0⟩, []⟩, ⟨1 / 2, ⟨30, 0⟩, []⟩, ⟨31 / 50, ⟨60, 0⟩, []⟩,
      ⟨11 / 20, ⟨90, 0⟩, []⟩]
    let v : VolumeOf ℚ := ⟨default, [(.reflectivity, cuts)]⟩
    ∃ s, v.scan .reflectivity (1 / 2) none = some s ∧ s.elevations = [1 / 2, 31 / 50] := by
  intro cuts v
  have hc : nearestCut (1 / 2) none cuts = some ⟨11 / 20, ⟨90, 0⟩, []⟩ := by
    norm_num [cuts, nearestCut, started, least?, latest?, Elevation.gap, Elevation.le,
      Elevation.sub, Elevation.isSmall, tolerance, Instant.le_def]
  have hs : v.scan .reflectivity (1 / 2) none =
      some ⟨.reflectivity, 11 / 20, elevationsOf cuts, []⟩ := by
    rw [VolumeOf.scan_eq_map]
    exact congrArg (Option.map _) hc
  have hlists : Lists (cuts.map Cut.elevation) [1 / 2, 31 / 50] := by
    constructor <;> norm_num [cuts, tolerance]
  obtain ⟨-, -, -, -, hunique, -⟩ := elevations_of_scan v .reflectivity (1 / 2) none _ hs
  exact ⟨_, hs, (hunique _ hlists).symm⟩

end ElevationScan

end RadarFeed
