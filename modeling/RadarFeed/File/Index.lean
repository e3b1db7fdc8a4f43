import RadarFeed.File.Path

/-!
An index of files: what is known under a path.

Paths with the same components are one entry; a later value replaces an earlier one.
-/

namespace RadarFeed

/-- Values by path. -/
structure FileIndex (α : Type) where
  /-- The entries, no two of which have the same path. -/
  entries : List (Path × α)
deriving Inhabited

namespace FileIndex

variable {α : Type}

/-- The index without entries. -/
def empty : FileIndex α := ⟨[]⟩

/-- The value of a path. -/
def get? (index : FileIndex α) (p : Path) : Option α :=
  (index.entries.find? fun e => e.1.same p).map Prod.snd

/-- The entries with the value of a path. -/
def put (p : Path) (x : α) : List (Path × α) → List (Path × α)
  | [] => [(p, x)]
  | e :: rest => if e.1.same p then (e.1, x) :: rest else e :: put p x rest

/-- The index with the value of a path. -/
def insert (index : FileIndex α) (p : Path) (x : α) : FileIndex α :=
  ⟨put p x index.entries⟩

/-- The number of entries. -/
def size (index : FileIndex α) : Nat :=
  index.entries.length

theorem get?_put_same {p q : Path} (x : α) (s : List (Path × α)) (h : p.same q = true) :
    ((put p x s).find? fun e => e.1.same q).map Prod.snd = some x := by
  induction s with
  | nil => simp [put, h]
  | cons e s ih =>
    simp only [put]
    split
    · rename_i k
      simp [Path.same_trans k h]
    · rename_i k
      have : ¬ e.1.same q = true := fun l =>
        k (Path.same_trans l (by rw [Path.same_comm]; exact h))
      simp [this, ih]

/-- A path has the value that was inserted last under an equal path. -/
theorem get?_insert_same {p q : Path} (index : FileIndex α) (x : α) (h : p.same q = true) :
    (index.insert p x).get? q = some x :=
  get?_put_same x index.entries h

theorem get?_put_ne {p q : Path} (x : α) (s : List (Path × α)) (h : p.same q = false) :
    ((put p x s).find? fun e => e.1.same q).map Prod.snd =
      (s.find? fun e => e.1.same q).map Prod.snd := by
  induction s with
  | nil => simp [put, h]
  | cons e s ih =>
    simp only [put]
    split
    · rename_i k
      have hq : e.1.same q = false := by
        cases hq : e.1.same q with
        | false => rfl
        | true =>
          rw [Path.same_comm] at k
          rw [Path.same_trans k hq] at h
          cases h
      simp [hq]
    · cases hq : e.1.same q with
      | true => simp [hq]
      | false => simpa [hq] using ih

/-- An insertion leaves the values of other paths. -/
theorem get?_insert_ne {p q : Path} (index : FileIndex α) (x : α) (h : p.same q = false) :
    (index.insert p x).get? q = index.get? q :=
  get?_put_ne x index.entries h

theorem get?_congr {p q : Path} (index : FileIndex α) (h : p.same q = true) :
    index.get? p = index.get? q := by
  unfold get? Path.same at *
  rw [of_decide_eq_true h]

end FileIndex

end RadarFeed
