/-!
Values by key, in the order of the keys.

`insert` gives a key a value, whether it has one or not, and `erase` takes it away. `mem_insert_iff`
and `mem_erase_iff` say what a change leaves in the list of entries.
-/

namespace RadarFeed

/-- The keys with their values. -/
abbrev Ordered (κ α : Type) := List (κ × α)

namespace Ordered

variable {κ α : Type} {m : Ordered κ α} {k l : κ} {x : α} {e : κ × α}

theorem ne_of_key_lt [LT κ] [Std.Irrefl (α := κ) (· < ·)] (h : k < l) : l ≠ k := by
  rintro rfl
  exact Std.Irrefl.irrefl l h

variable [DecidableEq κ]

/-- The map without a key. -/
def erase (m : Ordered κ α) (k : κ) : Ordered κ α :=
  m.filter fun e => e.1 ≠ k

theorem mem_erase_iff : e ∈ erase m k ↔ e.1 ≠ k ∧ e ∈ m := by
  simp [erase, and_comm]

variable [LT κ]

/-- The keys ascend, so each stands only once. -/
def IsOrdered (m : Ordered κ α) : Prop :=
  m.Pairwise fun a b => a.1 < b.1

theorem isOrdered_erase (h : IsOrdered m) : IsOrdered (erase m k) :=
  List.Pairwise.filter _ h

variable [DecidableLT κ]

/-- The map with a value of a key. -/
def insert (k : κ) (x : α) : Ordered κ α → Ordered κ α
  | [] => [(k, x)]
  | (l, y) :: rest =>
    if k = l then (k, x) :: rest
    else if k < l then (k, x) :: (l, y) :: rest
    else (l, y) :: insert k x rest

variable [Std.Irrefl (α := κ) (· < ·)] [Trans (α := κ) (· < ·) (· < ·) (· < ·)]

theorem mem_insert_iff (h : IsOrdered m) : e ∈ insert k x m ↔ e = (k, x) ∨ e.1 ≠ k ∧ e ∈ m := by
  induction m with
  | nil => simp [insert]
  | cons d m ih =>
    obtain ⟨l, y⟩ := d
    obtain ⟨hl, hm⟩ := List.pairwise_cons.1 h
    rw [insert]
    split
    · subst k
      have hne : ∀ e ∈ m, e.1 ≠ l := fun e he => ne_of_key_lt (hl e he)
      rw [List.mem_cons]
      grind
    · split
      · have hne : ∀ e ∈ m, e.1 ≠ k := fun e he => ne_of_key_lt (Trans.trans ‹k < l› (hl e he))
        grind
      · rw [List.mem_cons, ih hm]
        grind

theorem isOrdered_insert [Std.Trichotomous (α := κ) (· < ·)] (h : IsOrdered m) :
    IsOrdered (insert k x m) := by
  induction m with
  | nil => simp [insert, IsOrdered]
  | cons d m ih =>
    obtain ⟨l, y⟩ := d
    obtain ⟨hl, hm⟩ := List.pairwise_cons.1 h
    rw [insert]
    split
    · subst k
      exact List.pairwise_cons.2 ⟨hl, hm⟩
    · split
      · refine List.pairwise_cons.2 ⟨fun e he => ?_, h⟩
        rcases List.mem_cons.1 he with rfl | he
        · assumption
        · exact Trans.trans ‹k < l› (hl e he)
      · refine List.pairwise_cons.2 ⟨fun e he => ?_, ih hm⟩
        rcases (mem_insert_iff hm).1 he with rfl | ⟨-, he⟩
        · rcases Std.Trichotomous.rel_or_eq_or_rel_swap (r := (· < ·)) (a := k) (b := l) with
            hlt | heq | hlt
          · exact absurd hlt ‹_›
          · exact absurd heq ‹_›
          · exact hlt
        · exact hl e he

end Ordered

end RadarFeed
