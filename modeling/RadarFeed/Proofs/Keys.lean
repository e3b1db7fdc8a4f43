import Mathlib.Data.List.Nodup

/-!
The first entry with a key.

It is there if the key is that of an entry (`exists_find?_key`), and where no two entries have one
key it is the entry of that key (`find?_key_eq_some_iff`).
-/

namespace RadarFeed

variable {α κ : Type} [DecidableEq κ] {key : α → κ} {entries : List α} {k : κ} {e : α}

theorem key_of_find? (h : entries.find? (fun d => key d = k) = some e) : key e = k := by
  simpa using List.find?_some h

theorem exists_find?_key (key : α → κ) (h : e ∈ entries) :
    ∃ d, entries.find? (fun d => key d = key e) = some d := by
  rw [← Option.isSome_iff_exists, List.find?_isSome]
  exact ⟨e, h, by simp⟩

theorem find?_key_eq_some_iff (h : (entries.map key).Nodup) :
    entries.find? (fun d => key d = k) = some e ↔ e ∈ entries ∧ key e = k := by
  constructor
  · intro he
    exact ⟨List.mem_of_find?_eq_some he, key_of_find? he⟩
  · rintro ⟨hmem, rfl⟩
    obtain ⟨d, hd⟩ := exists_find?_key key hmem
    have heq : d = e :=
      List.inj_on_of_nodup_map h (List.mem_of_find?_eq_some hd) hmem (key_of_find? hd)
    rw [hd, heq]

end RadarFeed
