import RadarFeed.Geodesy.Grid

/-!
The grid does not depend on who computes it.

A buffer can be filled in two parts (`fill_eq_append`), hence run by run (`flatten_fill_chunks`),
and so workers that share a grid write what one of them would write over all of it
(`share_eq_fill`). This holds of all values that cells may be written with: of positions, and also
of notes of where they are written, of which there is one at each place (`inChunks_of_workers`).
-/

namespace RadarFeed.Geodesy

variable {α : Type} {put : Nat → α × α → α × α} {first n k total workers : Nat} {s : List α}

/-! ## Runs -/

theorem chunks_nil (n : Nat) : chunks n ([] : List α) = [] := by
  rw [chunks, dif_pos (.inr rfl)]

theorem chunks_of_ne_nil (hn : 0 < n) (hs : s ≠ []) :
    chunks n s = s.take n :: chunks n (s.drop n) := by
  rw [chunks, dif_neg (by simp [hs, Nat.ne_of_gt hn])]

/-- All workers but the last have cells to write, if there are any. -/
theorem cellsPerWorker_pos (htotal : 0 < total) (hworkers : 0 < workers) :
    0 < cellsPerWorker total workers :=
  Nat.div_pos (by omega) hworkers

/-! ## Filling -/

theorem length_fill (put : Nat → α × α → α × α) (first : Nat) (s : List α) :
    (fill put first s).length = s.length := by
  fun_induction fill put first s with
  | case1 first a b rest a' b' _ ih => simp [ih]
  | case2 => rfl

/-- A buffer is filled in two parts: the first `n` cells, and then those after them. -/
theorem fill_eq_append (n : Nat) (s : List α) (first : Nat) : fill put first s =
    fill put first (s.take (n * 2)) ++ fill put (first + n) (s.drop (n * 2)) := by
  induction n generalizing s first with
  | zero => simp [fill]
  | succ n ih =>
    rw [Nat.succ_mul]
    match s with
    | [] => simp [fill]
    | [a] => simp [fill]
    | a :: b :: rest =>
      simp only [List.take_succ_cons, List.drop_succ_cons, fill, List.cons_append]
      rw [ih rest (first + 1), Nat.add_right_comm first 1 n]
      rfl

/-- Run by run, a buffer is filled as at once. -/
theorem flatten_fill_chunks (hn : 0 < n) (s : List α) (chunk : Nat) :
    (((chunks (n * 2) s).zipIdx chunk).map fun (buffer, chunk) =>
      fill put (chunk * n) buffer).flatten = fill put (chunk * n) s := by
  have hpos : 0 < n * 2 := by omega
  -- by the length of what is left to cut
  induction hlen : s.length using Nat.strongRecOn generalizing s chunk with
  | ind len ih =>
    by_cases hs : s = []
    · subst hs
      simp [chunks_nil, fill]
    · have hshort : (s.drop (n * 2)).length < len := by
        have hsome : 0 < s.length := List.length_pos_iff.2 hs
        rw [List.length_drop]
        omega
      rw [chunks_of_ne_nil hpos hs, List.zipIdx_cons, List.map_cons, List.flatten_cons,
        ih _ hshort _ _ rfl, Nat.succ_mul, ← fill_eq_append]

/-- What workers write over a grid that they share, one of them writes over all of it. -/
theorem share_eq_fill (htotal : 0 < total) (hworkers : 0 < workers) (grid : List α) :
    share workers total put grid = fill put 0 grid := by
  rw [share, flatten_fill_chunks (cellsPerWorker_pos htotal hworkers), Nat.zero_mul]

/-- Each cell is written over the pair that stands in its place. -/
theorem getElem?_fill (put : Nat → α × α → α × α) (first : Nat) {a b : α}
    (ha : s[2 * k]? = some a) (hb : s[2 * k + 1]? = some b) :
    (fill put first s)[2 * k]? = some (put (first + k) (a, b)).1 ∧
      (fill put first s)[2 * k + 1]? = some (put (first + k) (a, b)).2 := by
  induction k generalizing s first with
  | zero =>
    match s with
    | x :: y :: rest =>
      cases ha
      cases hb
      exact ⟨rfl, rfl⟩
  | succ k ih =>
    match s with
    | x :: y :: rest =>
      have hfirst : first + (k + 1) = first + 1 + k := by omega
      rw [hfirst]
      exact ih (first + 1) ha hb

/-- Grids that are empty but for their length are filled with all cells. -/
theorem fill_replicate (put : Nat → α × α → α × α) (first n : Nat) (a : α) :
    fill put first (List.replicate (n * 2) a) =
      (List.range' first n).flatMap fun k => [(put k (a, a)).1, (put k (a, a)).2] := by
  induction n generalizing first with
  | zero => rfl
  | succ n ih =>
    rw [Nat.succ_mul, List.replicate_succ, List.replicate_succ, fill, ih, List.range'_succ,
      List.flatMap_cons]
    rfl

/-! ## The grid -/

theorem RadialSize.cells_pos (size : RadialSize) : 0 < size.cells := by
  cases size <;> decide

/-- What workers leave at the two places of a cell. -/
theorem getElem?_share (put : Nat → α × α → α × α) (a : α) (hworkers : 0 < workers)
    (hk : k < total) :
    let grid := share workers total put (List.replicate (total * 2) a)
    grid[2 * k]? = some (put k (a, a)).1 ∧ grid[2 * k + 1]? = some (put k (a, a)).2 := by
  intro grid
  have hempty : ∀ j, j < total * 2 → (List.replicate (total * 2) a)[j]? = some a := fun j hj => by
    rw [List.getElem?_replicate, if_pos hj]
  have hgrid : grid = fill put 0 _ := share_eq_fill (Nat.zero_lt_of_lt hk) hworkers _
  have hcell := getElem?_fill put 0 (hempty (2 * k) (by omega)) (hempty (2 * k + 1) (by omega))
  rwa [Nat.zero_add, ← hgrid] at hcell

/-- One worker or many, the grid is the same. -/
theorem inChunks_eq_compute (solve : Solver) (lat lon : Float) (gate : Float32) (size : RadialSize)
    (h : 0 < workers) : inChunks workers solve lat lon gate size =
      compute solve lat lon gate size := by
  rw [inChunks, share_eq_fill size.cells_pos h, RadialSize.gridLength, fill_replicate, compute,
    List.range_eq_range']
  rfl

/-- Notes the two places of a cell, in front of what is noted there. -/
def note (k : Nat) : List Nat × List Nat → List Nat × List Nat
  | (a, b) => (2 * k :: a, (2 * k + 1) :: b)

/-- **Sharing the work.** However many workers there are, the grid is the one that is computed cell
by cell: two numbers for each cell, the rounded latitude and longitude at its angle and range. And
each place of it is written once, with the number that belongs there. -/
theorem inChunks_of_workers (workers : Nat) (h : 0 < workers) (solve : Solver) (lat lon : Float)
    (gate : Float32) (size : RadialSize) :
    let grid := inChunks workers solve lat lon gate size
    let notes := share workers size.cells note (List.replicate size.gridLength [])
    grid = compute solve lat lon gate size ∧ grid.length = size.gridLength ∧
      (∀ k, k < size.cells →
        let position := solve lat lon (Float.ofNat (k / 1840) * size.width - size.width / 2.0)
          (Float.ofNat (k % 1840 + 1) * gate.toFloat)
        grid[2 * k]? = some position.1.toFloat32 ∧
          grid[2 * k + 1]? = some position.2.toFloat32) ∧
      ∀ j, j < size.gridLength → notes[j]? = some [j] := by
  intro grid notes
  have hgrid : grid = fill _ 0 _ := share_eq_fill size.cells_pos h _
  refine ⟨inChunks_eq_compute solve lat lon gate size h, ?_, fun k hk => ?_, fun j hj => ?_⟩
  · rw [hgrid, length_fill, List.length_replicate]
  · exact getElem?_share (fun k _ => cell solve lat lon gate size k) 0 h hk
  · have hlength : size.gridLength = size.cells * 2 := rfl
    obtain ⟨heven, hodd⟩ := getElem?_share note [] h (by omega : j / 2 < size.cells)
    -- a place is the first or the second of its cell
    rcases Nat.mod_two_eq_zero_or_one j with hmod | hmod
    · have hj : 2 * (j / 2) = j := by omega
      rwa [note, hj] at heven
    · have hj : 2 * (j / 2) + 1 = j := by omega
      rwa [note, hj] at hodd

/-- With more workers than cells each has one, if any; the last gate of the radial to the east. -/
theorem inChunks_of_million_workers :
    RadialSize.oneDegree.cells < 1000000 ∧
      (∀ lat lon, (inChunks 1000000 direct lat lon 250 .oneDegree).length = 1324800) ∧
      ∀ lat lon, (inChunks 1000000 direct lat lon 250 .oneDegree)[334878]? =
        some (direct lat lon (Float.ofNat 90 * 1.0 - 1.0 / 2.0)
          (Float.ofNat 1840 * Float32.toFloat 250)).1.toFloat32 := by
  refine ⟨by decide, fun lat lon => ?_, fun lat lon => ?_⟩
  · exact (inChunks_of_workers 1000000 (by decide) direct lat lon 250 .oneDegree).2.1
  · exact ((inChunks_of_workers 1000000 (by decide) direct lat lon 250 .oneDegree).2.2.1 167439
      (by decide)).1

end RadarFeed.Geodesy
