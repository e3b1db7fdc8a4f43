import RadarFeed.Proofs.Feed.Sound
import RadarFeed.Proofs.Product.Category

/-!
The products that managers offer.

A manager brings its products up to date when a list of them arrives, and does not touch them
otherwise (`categories_change`). So the products of every manager, at any time, are the index of
some list of codes (`categories_run`): of none before the first list.
-/

namespace RadarFeed

namespace Manager

variable {m : Manager}

theorem categories_change (retry : Duration) (m : Manager) (c : ManagerMove) :
    (m.change retry c).categories = m.categories ∨
      ∃ available, (m.change retry c).categories = m.categories.update available := by
  cases c with
  | listProducts available => exact .inr ⟨available, rfl⟩
  | step p move =>
    left
    simp only [change]
    split
    · rfl
    · cases p <;> rfl
  | store x =>
    left
    show (m.store x).categories = m.categories
    unfold store
    split <;> rfl
  | ensureMachine | ensureCache | computeGrids | requestProducts | close => exact .inl rfl

/-- The products of a manager are an index. -/
def IsListed (m : Manager) : Prop :=
  ∃ available, CategoryMap.IsIndex available m.categories

theorem isListed_new (settings : Settings) (radarId : String) (site : Site) :
    (new settings radarId site).IsListed :=
  ⟨[], .nil, by simp [new], by simp [new], by simp [new, CategoryMap.Offers]⟩

theorem IsListed.change (h : m.IsListed) (retry : Duration) (c : ManagerMove) :
    (m.change retry c).IsListed := by
  obtain ⟨available, h⟩ := h
  rcases categories_change retry m c with heq | ⟨available', heq⟩
  · exact ⟨available, by rwa [heq]⟩
  · exact ⟨available', by rw [heq]; exact CategoryMap.isIndex_update h.ordered⟩

end Manager

namespace Feed

variable {f : Feed}

/-- The products of all managers are indexes. -/
def Listed (f : Feed) : Prop :=
  ∀ n m, f.manager? n = some m → m.IsListed

theorem Listed.apply (h : f.Listed) (move : FeedMove) : (f.apply move).Listed :=
  (managers_apply f move).preserves (I := fun _ m => m.IsListed)
    (fun _ _ _ _ _ => Manager.isListed_new _ _ _) (fun _ _ c _ hm => hm.change _ c) h

theorem Listed.sweep (h : f.Listed) : f.sweep.Listed := by
  intro n m' hm'
  rw [manager?_sweep] at hm'
  obtain ⟨m, hm, rfl⟩ := Option.map_eq_some_iff.1 hm'
  unfold swept
  split
  · exact (h n m hm).change _ _
  · exact h n m hm

theorem Listed.move (h : f.Listed) (move : FeedMove) : (f.move move).Listed := by
  unfold Feed.move
  split
  · exact (h.apply move).sweep
  · exact h

/-- In every run, the products of a manager are the index of some list of codes. -/
theorem categories_run (sites : SiteTable) (settings : Settings) (moves : List FeedMove) :
    ((new sites settings).run moves).Listed :=
  run_of_move (by simp [Listed, new, manager?]) fun _ move _ hg => hg.move move

end Feed

end RadarFeed
