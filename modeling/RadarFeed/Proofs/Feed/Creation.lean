import RadarFeed.Proofs.Feed.Sound

/-!
How managers come into being.

A move creates one manager at most. It does so when the manager of a site is wanted that does not
live: the new manager is the last one, the registry names it under its site, in capitals, and its
site is announced (`Brings`). Any other move leaves the sites of managers, the registry and what has
been announced as they are, but for the registry being cleared (`brings_apply`).
-/

namespace RadarFeed

namespace Feed

variable {f g : Feed}

/-- From `f` to `g` the manager of a site is created. -/
structure Brings (f g : Feed) (id : String) : Prop where
  absent : f.living? id = none
  capitals : Ascii.upper id = id
  managers : g.managers.map Manager.radarId = f.managers.map Manager.radarId ++ [id]
  alive : ∃ m, g.manager? f.managers.length = some m ∧ m.alive = true
  registry : g.registry = f.registry.set id f.managers.length
  created : g.created.sent = f.created.sent ++ [id]

/-- From `f` to `g` no manager is created. -/
structure BringsNone (f g : Feed) : Prop where
  managers : g.managers.map Manager.radarId = f.managers.map Manager.radarId
  created : g.created.sent = f.created.sent

theorem Brings.length {id : String} (h : f.Brings g id) :
    g.managers.length = f.managers.length + 1 := by
  have := congrArg List.length h.managers
  simpa using this

theorem BringsNone.length (h : f.BringsNone g) : g.managers.length = f.managers.length := by
  have := congrArg List.length h.managers
  simpa using this

/-- The manager that is created lives, and is that of the site. -/
theorem Brings.manager {id : String} (h : f.Brings g id) :
    ∃ m, g.manager? f.managers.length = some m ∧ m.alive = true ∧ m.radarId = id := by
  obtain ⟨m, hm, hal⟩ := h.alive
  have hid : (g.managers.map Manager.radarId)[f.managers.length]? = some m.radarId := by
    rw [List.getElem?_map, show g.managers[f.managers.length]? = some m from hm, Option.map_some]
  rw [h.managers, List.getElem?_append_right (by simp)] at hid
  have hid : some id = some m.radarId := by simpa using hid
  exact ⟨m, hm, hal, (Option.some.inj hid).symm⟩

theorem Brings.congr {id : String} {h : Feed} (hb : f.Brings g id) (hm : h.managers = g.managers)
    (hr : h.registry = g.registry) (hc : h.created = g.created) : f.Brings h id := by
  obtain ⟨absent, capitals, managers, ⟨m, hm', hal⟩, registry, created⟩ := hb
  refine ⟨absent, capitals, hm ▸ managers, ⟨m, ?_, hal⟩, hr ▸ registry, hc ▸ created⟩
  have hm' : g.managers[f.managers.length]? = some m := hm'
  show h.managers[f.managers.length]? = some m
  rw [hm, hm']

theorem brings_manager {radarId : String} (h : f.living? (Ascii.upper radarId) = none) :
    (f.manager radarId).2 = f.managers.length ∧
      f.Brings (f.manager radarId).1 (Ascii.upper radarId) := by
  obtain ⟨log, hc⟩ := f.create_eq (Ascii.upper radarId)
  have he : f.manager radarId = f.create (Ascii.upper radarId) := by
    simp only [manager, h]
  rw [he, hc]
  exact ⟨rfl, h, Ascii.upper_upper radarId, List.map_append, ⟨_, List.getElem?_concat_length, rfl⟩,
    rfl, rfl⟩

theorem manager_of_living {radarId : String} {n : Nat}
    (h : f.living? (Ascii.upper radarId) = some n) : f.manager radarId = (f, n) := by
  simp only [manager, h]

/-- A move that wants no manager that does not live neither announces one nor gives it a name. -/
theorem shared_of_not_creates {move : FeedMove} (hn : ∀ id, ¬ f.Creates move id) :
    (f.apply move).created = f.created ∧
      (move ≠ .cleanup → (f.apply move).registry = f.registry) := by
  have hw : ∀ {id}, f.living? id ≠ none → f.sharedWith id = f.shared := by
    intro id hid
    unfold sharedWith
    rw [if_pos (Option.isSome_iff_ne_none.2 hid)]
  have hs := f.shared_apply move
  have hc : (f.apply move).created = (f.sharedAfter move).created := congrArg Shared.created hs
  have hr : (f.apply move).registry = (f.sharedAfter move).registry := congrArg Shared.registry hs
  rw [hc, hr]
  cases move with
  | hold radarId =>
    have h := hw fun (h : f.living? (Ascii.upper radarId) = none) => hn _ (.held h)
    simp only [sharedAfter, h]
    exact ⟨rfl, fun _ => rfl⟩
  | cleanup => exact ⟨rfl, fun h => absurd rfl h⟩
  | decoded id outcome remarks =>
    cases outcome with
    | file file =>
      simp only [sharedAfter]
      split
      · rename_i bytes hp
        obtain ⟨l, hl, hp⟩ := Option.map_eq_some_iff.1 hp
        rw [Ascii.upper_upper, hw fun h => hn _ (.routed hl hp h)]
        exact ⟨rfl, fun _ => rfl⟩
      · exact ⟨rfl, fun _ => rfl⟩
    | _ => exact ⟨rfl, fun _ => rfl⟩
  | gridsReady id =>
    simp only [sharedAfter]
    split <;> exact ⟨rfl, fun _ => rfl⟩
  | _ => exact ⟨rfl, fun _ => rfl⟩

theorem Creates.brings {move : FeedMove} {id : String} (h : f.Creates move id) :
    f.Brings (f.apply move) id := by
  cases h with
  | @held radarId h =>
    have hb : f.Brings (f.manager radarId).1 (Ascii.upper radarId) := (brings_manager h).2
    exact hb.congr rfl rfl rfl
  | @routed id l bytes file remarks hl hp h =>
    obtain ⟨log, he⟩ := takeDecoded_eq hl hp file remarks
    rw [← Ascii.upper_upper] at h
    have hb := (brings_manager h).2
    rw [Ascii.upper_upper] at hb
    rw [show f.apply (.decoded id (.file file) remarks) = _ from he]
    exact hb.congr rfl rfl rfl

theorem bringsNone_apply {move : FeedMove} (hn : ∀ id, ¬ f.Creates move id) :
    f.BringsNone (f.apply move) := by
  refine ⟨List.ext_getElem? fun n => ?_, congrArg Channel.sent (shared_of_not_creates hn).1⟩
  have hlen : (f.apply move).managers.length = f.managers.length :=
    (managers_apply f move).length hn
  rw [List.getElem?_map, List.getElem?_map]
  rcases Nat.lt_or_ge n f.managers.length with hlt | hge
  · obtain ⟨m, hm, -, hid⟩ := alive_apply (List.getElem?_eq_getElem hlt) move
    have hm : (f.apply move).managers[n]? = some m := hm
    rw [hm, List.getElem?_eq_getElem hlt, Option.map_some, Option.map_some, hid]
  · rw [List.getElem?_eq_none (hlen ▸ hge), List.getElem?_eq_none hge]

/-- **A move creates one manager at most.** -/
theorem brings_apply (f : Feed) (move : FeedMove) :
    (∃ id, f.Brings (f.apply move) id) ∨ f.BringsNone (f.apply move) ∧
      (move ≠ .cleanup → (f.apply move).registry = f.registry) := by
  by_cases h : ∃ id, f.Creates move id
  · obtain ⟨id, h⟩ := h
    exact .inl ⟨id, h.brings⟩
  · have hn : ∀ id, ¬ f.Creates move id := fun id hid => h ⟨id, hid⟩
    exact .inr ⟨bringsNone_apply hn, (shared_of_not_creates hn).2⟩

end Feed

end RadarFeed
