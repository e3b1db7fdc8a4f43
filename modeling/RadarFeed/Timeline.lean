import RadarFeed.Time.Instant

/-!
Values in the order of time, at most one at each instant.

`insert` replaces the value at an instant, `insertNew` keeps it. `get?` is the value at an instant,
`atOrBefore` the last value not after it and `latest` the last of all. `mem_put` and `mem_insertNew`
say what a change leaves in the list of entries.
-/

namespace RadarFeed

/-- Values in the order of time. -/
structure Timeline (α : Type) where
  /-- The instants that have a value, with it, in ascending order. -/
  entries : List (Instant × α)
  sorted : entries.Pairwise fun a b => a.1 < b.1

namespace Timeline

variable {α : Type}

/-- The entries with the value at `t` made from the one before. -/
def put (t : Instant) (f : Option α → α) : List (Instant × α) → List (Instant × α)
  | [] => [(t, f none)]
  | (u, x) :: s =>
    if t < u then (t, f none) :: (u, x) :: s
    else if t = u then (t, f (some x)) :: s
    else (u, x) :: put t f s

theorem mem_put {t : Instant} {f : Option α → α} {e : Instant × α} {s : List (Instant × α)}
    (h : e ∈ put t f s) : e.1 = t ∨ e ∈ s := by
  induction s with
  | nil => simp [put] at h; simp [h]
  | cons d s ih =>
    simp only [put] at h
    split at h
    · rcases List.mem_cons.1 h with rfl | h
      · exact .inl rfl
      · exact .inr h
    · split at h
      · rcases List.mem_cons.1 h with rfl | h
        · exact .inl rfl
        · exact .inr (List.mem_cons_of_mem _ h)
      · rcases List.mem_cons.1 h with rfl | h
        · exact .inr List.mem_cons_self
        · exact (ih h).imp_right (List.mem_cons_of_mem _)

/-- A value that stays, or the new one. -/
theorem mem_put_getD {t : Instant} {x : α} {e : Instant × α} {s : List (Instant × α)}
    (h : e ∈ put t (fun old => old.getD x) s) : e ∈ s ∨ e = (t, x) := by
  induction s with
  | nil => exact .inr (by simpa [put] using h)
  | cons d s ih =>
    simp only [put] at h
    split at h
    · rcases List.mem_cons.1 h with rfl | h
      · exact .inr rfl
      · exact .inl h
    · split at h
      · subst t
        exact .inl h
      · rcases List.mem_cons.1 h with rfl | h
        · exact .inl List.mem_cons_self
        · exact (ih h).imp_left (List.mem_cons_of_mem _)

theorem sorted_put {t : Instant} {f : Option α → α} {s : List (Instant × α)}
    (h : s.Pairwise fun a b => a.1 < b.1) : (put t f s).Pairwise fun a b => a.1 < b.1 := by
  induction s with
  | nil => simp [put]
  | cons d s ih =>
    obtain ⟨h, hs⟩ := List.pairwise_cons.1 h
    simp only [put]
    split
    · refine List.pairwise_cons.2 ⟨fun e he => ?_, List.pairwise_cons.2 ⟨h, hs⟩⟩
      rcases List.mem_cons.1 he with rfl | he
      · assumption
      · exact Instant.lt_trans ‹_› (h e he)
    · split
      · subst t
        exact List.pairwise_cons.2 ⟨h, hs⟩
      · refine List.pairwise_cons.2 ⟨fun e he => ?_, ih hs⟩
        rcases mem_put he with k | k
        · rw [k]
          exact Instant.lt_of_le_of_ne (Instant.not_lt.1 ‹_›) (Ne.symm ‹_›)
        · exact h e k

/-- No values. -/
def empty : Timeline α := ⟨[], .nil⟩

instance : Inhabited (Timeline α) := ⟨empty⟩

/-- The timeline with a value at `t`, whether there was one or not. -/
def insert (l : Timeline α) (t : Instant) (x : α) : Timeline α :=
  ⟨put t (fun _ => x) l.entries, sorted_put l.sorted⟩

/-- The timeline with a value at `t`, if there was none. -/
def insertNew (l : Timeline α) (t : Instant) (x : α) : Timeline α :=
  ⟨put t (fun old => old.getD x) l.entries, sorted_put l.sorted⟩

/-- The timeline of entries, of which a later one replaces an earlier one at its instant. -/
def ofList (s : List (Instant × α)) : Timeline α :=
  s.foldl (fun l e => l.insert e.1 e.2) empty

/-- The instants that have a value, in ascending order. -/
def times (l : Timeline α) : List Instant :=
  l.entries.map Prod.fst

/-- The number of values. -/
def size (l : Timeline α) : Nat :=
  l.entries.length

/-- Whether there is no value. -/
def isEmpty (l : Timeline α) : Bool :=
  l.entries.isEmpty

/-- The value at `t`. -/
def get? (l : Timeline α) (t : Instant) : Option α :=
  (l.entries.find? fun e => e.1 = t).map Prod.snd

/-- The last value. -/
def latest (l : Timeline α) : Option α :=
  l.entries.getLast?.map Prod.snd

/-- The last value not after `t`. -/
def atOrBefore (l : Timeline α) (t : Instant) : Option α :=
  (l.entries.filter fun e => decide (e.1 ≤ t)).getLast?.map Prod.snd

theorem mem_of_get? {l : Timeline α} {t : Instant} {x : α} (h : l.get? t = some x) :
    (t, x) ∈ l.entries := by
  obtain ⟨e, he, rfl⟩ := Option.map_eq_some_iff.1 h
  have ht : e.1 = t := by simpa using List.find?_some he
  subst ht
  exact List.mem_of_find?_eq_some he

theorem mem_insertNew {l : Timeline α} {t : Instant} {x : α} {e : Instant × α}
    (h : e ∈ (l.insertNew t x).entries) : e ∈ l.entries ∨ e = (t, x) :=
  mem_put_getD h

theorem find?_put_same {t : Instant} {f : Option α → α} {s : List (Instant × α)}
    (h : s.Pairwise fun a b => a.1 < b.1) :
    ((put t f s).find? fun e => e.1 = t).map Prod.snd =
      some (f ((s.find? fun e => e.1 = t).map Prod.snd)) := by
  induction s with
  | nil => simp [put]
  | cons d s ih =>
    obtain ⟨h, hs⟩ := List.pairwise_cons.1 h
    simp only [put]
    split
    · rename_i hlt
      -- no later entry is at `t`, which is before the first one
      have hd : ¬ d.1 = t := fun k => Instant.lt_irrefl t (k ▸ hlt)
      have hn : s.find? (fun e => decide (e.1 = t)) = none := by
        refine List.find?_eq_none.2 fun e he => ?_
        have hte : t < e.1 := Instant.lt_trans hlt (h e he)
        have : ¬ e.1 = t := fun k => Instant.lt_irrefl e.1 (by rw [← k] at hte; exact hte)
        simpa using this
      simp [hd, hn]
    · split
      · subst t; simp
      · rename_i hne
        simp [Ne.symm hne, ih hs]

theorem find?_put_ne {t u : Instant} {f : Option α → α} {s : List (Instant × α)} (h : u ≠ t) :
    (put t f s).find? (fun e => e.1 = u) = s.find? fun e => e.1 = u := by
  induction s with
  | nil => simp [put, Ne.symm h]
  | cons d s ih =>
    simp only [put]
    split
    · simp [Ne.symm h]
    · split
      · subst t; simp [Ne.symm h]
      · simp only [List.find?_cons, ih]

/-- An instant that has a value keeps it, and the others do. -/
theorem get?_insertNew (l : Timeline α) (t u : Instant) (x : α) :
    (l.insertNew t x).get? u = (l.get? u).or (if u = t then some x else none) := by
  by_cases h : u = t
  · subst h
    simp only [get?, insertNew, find?_put_same l.sorted, if_true]
    cases (l.entries.find? fun e => decide (e.1 = u)).map Prod.snd <;> rfl
  · rw [if_neg h, Option.or_none]
    simp only [get?, insertNew, find?_put_ne h]

end Timeline

end RadarFeed
