/-!
Values by key, in the order in which the keys were first used.

`set` gives a key a value, whether it has one or not. `get?_set_same` and `get?_set_ne` say what is
found afterwards.
-/

namespace RadarFeed

/-- Values by key. -/
structure Keyed (κ α : Type) where
  /-- The keys with their values. -/
  entries : List (κ × α)
deriving Repr, Inhabited

namespace Keyed

variable {κ α : Type} [DecidableEq κ]

/-- No values. -/
def empty : Keyed κ α := ⟨[]⟩

/-- The value of the first entry with a key. -/
def find (k : κ) : List (κ × α) → Option α
  | [] => none
  | (l, x) :: rest => if l = k then some x else find k rest

/-- The entries with the value of a key. -/
def put (k : κ) (x : α) : List (κ × α) → List (κ × α)
  | [] => [(k, x)]
  | (l, y) :: rest => if l = k then (l, x) :: rest else (l, y) :: put k x rest

/-- The value of a key. -/
def get? (m : Keyed κ α) (k : κ) : Option α :=
  find k m.entries

/-- Gives a key a value. -/
def set (m : Keyed κ α) (k : κ) (x : α) : Keyed κ α :=
  ⟨put k x m.entries⟩

/-- Gives a key a value if it has none. -/
def ensure (m : Keyed κ α) (k : κ) (x : α) : Keyed κ α :=
  if (m.get? k).isSome then m else m.set k x

/-- The values with their keys, each made anew from both. -/
def mapValues {β : Type} (m : Keyed κ α) (f : κ → α → β) : Keyed κ β :=
  ⟨m.entries.map fun e => (e.1, f e.1 e.2)⟩

/-- The keys, in the order of their first use. -/
def keys (m : Keyed κ α) : List κ :=
  m.entries.map Prod.fst

theorem find_put_same (k : κ) (x : α) (s : List (κ × α)) : find k (put k x s) = some x := by
  induction s with
  | nil => simp [put, find]
  | cons e s ih =>
    obtain ⟨l, y⟩ := e
    by_cases h : l = k <;> simp [put, find, h, ih]

theorem find_put_ne {k l : κ} (h : l ≠ k) (x : α) (s : List (κ × α)) :
    find l (put k x s) = find l s := by
  induction s with
  | nil => simp [put, find, Ne.symm h]
  | cons e s ih =>
    obtain ⟨i, y⟩ := e
    by_cases hi : i = k
    · subst hi; simp [put, find, Ne.symm h]
    · simp only [put, hi, if_false, find, ih]

theorem mem_of_find {k : κ} {x : α} {s : List (κ × α)} (h : find k s = some x) : (k, x) ∈ s := by
  induction s with
  | nil => simp [find] at h
  | cons e s ih =>
    simp only [find] at h
    split at h
    · rename_i hk
      rw [← hk, ← Option.some.inj h]
      exact List.mem_cons_self
    · exact List.mem_cons_of_mem _ (ih h)

theorem mem_put {k : κ} {x : α} {e : κ × α} {s : List (κ × α)} (h : e ∈ put k x s) :
    e ∈ s ∨ e = (k, x) := by
  induction s with
  | nil => exact .inr (by simpa [put] using h)
  | cons d s ih =>
    simp only [put] at h
    split at h
    · rename_i hk
      rcases List.mem_cons.1 h with rfl | h
      · exact .inr (by rw [hk])
      · exact .inl (List.mem_cons_of_mem _ h)
    · rcases List.mem_cons.1 h with rfl | h
      · exact .inl List.mem_cons_self
      · exact (ih h).imp_left (List.mem_cons_of_mem _)

theorem mem_of_get? {m : Keyed κ α} {k : κ} {x : α} (h : m.get? k = some x) :
    (k, x) ∈ m.entries :=
  mem_of_find h

theorem mem_set {m : Keyed κ α} {k : κ} {x : α} {e : κ × α} (h : e ∈ (m.set k x).entries) :
    e ∈ m.entries ∨ e = (k, x) :=
  mem_put h

theorem mem_ensure {m : Keyed κ α} {k : κ} {x : α} {e : κ × α} (h : e ∈ (m.ensure k x).entries) :
    e ∈ m.entries ∨ e = (k, x) := by
  unfold ensure at h
  split at h
  · exact .inl h
  · exact mem_set h

/-- A key that is given a value has it. -/
theorem get?_set_same (m : Keyed κ α) (k : κ) (x : α) : (m.set k x).get? k = some x :=
  find_put_same k x m.entries

/-- The other keys keep their values. -/
theorem get?_set_ne (m : Keyed κ α) {k l : κ} (h : l ≠ k) (x : α) :
    (m.set k x).get? l = m.get? l :=
  find_put_ne h x m.entries

/-- A key that has a value keeps it. -/
theorem get?_ensure (m : Keyed κ α) (k l : κ) (x : α) :
    (m.ensure k x).get? l = (m.get? l).or (if l = k then some x else none) := by
  unfold ensure
  by_cases h : l = k
  · subst h
    cases hl : m.get? l with
    | none => simp [get?_set_same]
    | some y => simp [hl]
  · rw [if_neg h, Option.or_none]
    split
    · rfl
    · exact m.get?_set_ne h x

/-- A key that is given a value for the first time is the last one. -/
theorem keys_set (m : Keyed κ α) (k : κ) (x : α) :
    (m.set k x).keys = if k ∈ m.keys then m.keys else m.keys ++ [k] := by
  obtain ⟨s⟩ := m
  simp only [keys, set]
  induction s with
  | nil => simp [put]
  | cons e s ih =>
    obtain ⟨l, y⟩ := e
    by_cases h : l = k
    · simp [put, h]
    · by_cases hk : k ∈ s.map Prod.fst <;> simp [put, h, Ne.symm h, ih, hk]

/-- No key is used twice. -/
theorem nodup_keys_set {m : Keyed κ α} (h : m.keys.Nodup) (k : κ) (x : α) :
    (m.set k x).keys.Nodup := by
  rw [keys_set]
  split
  · exact h
  · rename_i hk
    refine List.nodup_append.2 ⟨h, by simp, ?_⟩
    intro a ha b hb hab
    rw [List.mem_singleton.1 hb] at hab
    exact hk (hab ▸ ha)

theorem mem_keys_of_get? {m : Keyed κ α} {k : κ} {x : α} (h : m.get? k = some x) : k ∈ m.keys :=
  List.mem_map_of_mem (mem_of_get? h)

theorem get?_mapValues {β : Type} (m : Keyed κ α) (f : κ → α → β) (k : κ) :
    (m.mapValues f).get? k = (m.get? k).map (f k) := by
  obtain ⟨s⟩ := m
  simp only [get?, mapValues]
  induction s with
  | nil => rfl
  | cons e s ih =>
    simp only [List.map_cons, find]
    split
    · rename_i h; subst h; rfl
    · exact ih

end Keyed

end RadarFeed
