import RadarFeed.Proofs.File.Route
import RadarFeed.Proofs.Text.Ascii
import RadarFeed.Source.Directory

/-!
What a source reads, seen from the root of all sources.

The directories of a source never change (`IsOf.dirs`). They lie where the root, the site and
the product lead one after the other (`route_objectDir`), so below the root unless the site or the
product is an absolute path or goes up and not down again the same way (`stays_below_root_iff`). A
key never leads anywhere else: what is loaded is a file directly in the directory of the objects
(`exists_place_of_load`).
-/

namespace RadarFeed

namespace Path

/-- A text that, as a path, leads down: it does not begin with a slash, and no piece of it is two
points. -/
def IsPlain (text : String) : Prop :=
  isAbsolute ⟨text⟩ = false ∧ ".." ∉ pieces ⟨text⟩

variable {text : String}

theorem isAbsolute_upper : isAbsolute ⟨Ascii.upper text⟩ = isAbsolute ⟨text⟩ := by
  rw [isAbsolute, isAbsolute, Ascii.toList_upper, List.head?_map]
  cases text.toList.head? with
  | none => rfl
  | some c => simp [Ascii.toUpper_eq_iff]

theorem pieces_upper : pieces ⟨Ascii.upper text⟩ = (pieces ⟨text⟩).map Ascii.upper := by
  have hslash : ∀ c : Char, c.toUpper = '/' ↔ c = '/' := fun c => Ascii.toUpper_eq_iff (by decide)
  simp only [pieces, Ascii.toList_upper, Text.splitAt_map hslash, List.map_map]
  refine List.map_congr_left fun piece _ => ?_
  simp [Ascii.upper]

/-- The capitals of a text that leads down do so too. -/
theorem IsPlain.exists_route_upper (h : IsPlain text) :
    ∃ names, route ⟨Ascii.upper text⟩ = .fromHere 0 names := by
  refine exists_route_eq (by rw [isAbsolute_upper, h.1]) ?_
  rw [pieces_upper]
  intro hup
  obtain ⟨piece, hpiece, heq⟩ := List.mem_map.1 hup
  rw [Ascii.upper_eq_iff (by simp)] at heq
  exact h.2 (heq ▸ hpiece)

end Path

namespace DirectorySource

/-- The directory of the products of a site, as seen from the root. -/
def productsPath (radarId : String) : Path :=
  (⟨Ascii.upper radarId⟩ : Path).join ⟨"level3"⟩

/-- The directory of the objects of a source, as seen from the root. -/
def objectsPath (radarId : String) : Option String → Path
  | none => (⟨Ascii.upper radarId⟩ : Path).join ⟨"level2"⟩
  | some product => (productsPath radarId).join ⟨Ascii.upper product⟩

/-- The source of a site or product below a root, whatever it has been asked for since. -/
inductive IsOf (root : Path) (radarId : String) (product : Option String) :
    DirectorySource → Prop where
  | created : IsOf root radarId product (of root radarId product)
  | refresh {s} (listing : Except FileError (List (String × Bool))) :
      IsOf root radarId product s → IsOf root radarId product (s.refresh listing).1
  | requestProducts {s} (listing : Except FileError (List (String × Bool))) :
      IsOf root radarId product s → IsOf root radarId product (s.requestProducts listing).1

variable {root : Path} {radarId : String} {product : Option String} {s : DirectorySource}

theorem dirs_refresh (s : DirectorySource) (listing : Except FileError (List (String × Bool))) :
    (s.refresh listing).1.objectDir = s.objectDir ∧
      (s.refresh listing).1.productsDir = s.productsDir := by
  cases listing with
  | ok names => exact ⟨rfl, rfl⟩
  | error e => cases e <;> exact ⟨rfl, rfl⟩

theorem dirs_requestProducts (s : DirectorySource)
    (listing : Except FileError (List (String × Bool))) :
    (s.requestProducts listing).1.objectDir = s.objectDir ∧
      (s.requestProducts listing).1.productsDir = s.productsDir := by
  cases listing with
  | ok names => exact ⟨rfl, rfl⟩
  | error e => cases e <;> exact ⟨rfl, rfl⟩

/-- A source keeps the directories that it was created with. -/
theorem IsOf.dirs (h : IsOf root radarId product s) :
    s.objectDir = (of root radarId product).objectDir ∧
      s.productsDir = (of root radarId product).productsDir := by
  induction h with
  | created => exact ⟨rfl, rfl⟩
  | refresh listing _ ih =>
    obtain ⟨hobjects, hproducts⟩ := dirs_refresh _ listing
    exact ⟨hobjects.trans ih.1, hproducts.trans ih.2⟩
  | requestProducts listing _ ih =>
    obtain ⟨hobjects, hproducts⟩ := dirs_requestProducts _ listing
    exact ⟨hobjects.trans ih.1, hproducts.trans ih.2⟩

theorem IsOf.route_objectDir (h : IsOf root radarId product s) :
    s.objectDir.route = root.route * (objectsPath radarId product).route := by
  rw [h.dirs.1]
  cases product <;>
    simp only [of, level2, level3, siteDir, objectsPath, productsPath, Path.route_join, mul_assoc]

theorem IsOf.route_productsDir (h : IsOf root radarId product s) :
    s.productsDir.route = root.route * (productsPath radarId).route := by
  rw [h.dirs.2]
  cases product <;> simp only [of, level2, level3, siteDir, productsPath, Path.route_join, mul_assoc]

theorem IsOf.objectDir_ne_empty (h : IsOf root radarId product s) : s.objectDir.text ≠ "" := by
  have hjoin : ∀ (p : Path) (name : String), name ≠ "" → (p.join ⟨name⟩).text ≠ "" :=
    fun p name hname => Path.text_join_ne_empty (.inr hname)
  rw [h.dirs.1]
  cases product with
  | none => exact hjoin _ _ (by decide)
  | some product => exact Path.text_join_ne_empty (.inl (hjoin _ _ (by decide)))

theorem exists_route_productsPath (hsite : Path.IsPlain radarId) :
    ∃ names, (productsPath radarId).route = .fromHere 0 names := by
  obtain ⟨site, hsite⟩ := hsite.exists_route_upper
  rw [productsPath, Path.route_join, hsite, Path.route_name (by decide), Route.fromHere_mul]
  exact ⟨_, rfl⟩

theorem exists_route_objectsPath (hsite : Path.IsPlain radarId)
    (hproduct : ∀ code ∈ product, Path.IsPlain code) :
    ∃ names, (objectsPath radarId product).route = .fromHere 0 names := by
  cases product with
  | none =>
    obtain ⟨site, hsite⟩ := hsite.exists_route_upper
    rw [objectsPath, Path.route_join, hsite, Path.route_name (by decide),
      Route.fromHere_mul]
    exact ⟨_, rfl⟩
  | some code =>
    obtain ⟨above, habove⟩ := exists_route_productsPath hsite
    obtain ⟨names, hnames⟩ := (hproduct code rfl).exists_route_upper
    rw [objectsPath, Path.route_join, habove, hnames, Route.fromHere_mul]
    exact ⟨_, rfl⟩

theorem of_isName {key : String} (h : isName key = true) :
    key ≠ "" ∧ key ≠ ".." ∧ '/' ∉ key.toList := by
  simp only [isName, Bool.and_eq_true, List.all_eq_true, decide_eq_true_eq] at h
  exact ⟨h.1.1, h.1.2, fun hslash => (h.2 '/' hslash).1 rfl⟩

/-- What is loaded is a file that has the key as its name, directly in the directory of the
objects. -/
theorem exists_place_of_load {tree : FileTree} {key : String} {bytes : List UInt8}
    (hdir : s.objectDir.text ≠ "") (hload : s.load tree key = .ok bytes) :
    IsFileName key ∧ ∃ place, tree.locate s.objectDir = .ok place ∧
      tree.node? place = some .directory ∧ tree.node? (place ++ [key]) = some (.file bytes) := by
  unfold load at hload
  split at hload
  · rename_i hname
    obtain ⟨hempty, hup, hslash⟩ := of_isName hname
    split at hload
    · rename_i hread
      cases hload
      exact FileTree.exists_place_of_read hdir hslash hempty hup hread
    · cases hload
    · cases hload
  · cases hload

/-- **What a source reads, seen from the root.** The directories that a source lists lie at the root
or below it exactly if the site, and with it the product, leads back there from the root; so always
if neither begins with a slash or has two points for a piece. Under a key no more is loaded than a
file of that name directly in the directory of the objects, which is below the root if that is. -/
theorem stays_below_root_iff (h : IsOf root radarId product s) :
    (root.route.Contains s.objectDir.route ↔
      root.route.LeadsBack (objectsPath radarId product).route) ∧
    (root.route.Contains s.productsDir.route ↔
      root.route.LeadsBack (productsPath radarId).route) ∧
    (Path.IsPlain radarId → (∀ code ∈ product, Path.IsPlain code) →
      root.route.Contains s.objectDir.route ∧ root.route.Contains s.productsDir.route) ∧
    ∀ tree key bytes, s.load tree key = .ok bytes → IsFileName key ∧
      ∃ place, tree.locate s.objectDir = .ok place ∧ tree.node? place = some .directory ∧
        tree.node? (place ++ [key]) = some (.file bytes) ∧
        (root.route.Contains s.objectDir.route →
          root.route.Contains (s.objectDir.join ⟨key⟩).route ∧
          root.route.place tree.home <+: place) := by
  have hobjects := h.route_objectDir
  have hproducts := h.route_productsDir
  refine ⟨?_, ?_, ?_, ?_⟩
  · rw [hobjects]
    exact Route.contains_mul_iff _ _
  · rw [hproducts]
    exact Route.contains_mul_iff _ _
  · intro hsite hproduct
    obtain ⟨names, hnames⟩ := exists_route_objectsPath hsite hproduct
    obtain ⟨names', hnames'⟩ := exists_route_productsPath hsite
    rw [hobjects, hproducts, Route.contains_mul_iff, Route.contains_mul_iff, hnames, hnames']
    exact ⟨Route.leadsBack_of_names _ _, Route.leadsBack_of_names _ _⟩
  · intro tree key bytes hload
    obtain ⟨hkey, place, hplace, hdir, hfile⟩ := exists_place_of_load h.objectDir_ne_empty hload
    refine ⟨hkey, place, hplace, hdir, hfile, fun hbelow => ⟨?_, ?_⟩⟩
    · rw [Path.route_join, Path.route_name hkey, Route.mul_names]
      exact hbelow.enter _
    · rw [FileTree.place_of_locate hplace]
      exact hbelow.place _

/-- A root with a volume of one site, and beside it what looks like the products of a site. -/
def besideRoot : FileTree :=
  ⟨[], [(["data"], .directory), (["data", "KLSX"], .directory),
    (["data", "KLSX", "level2"], .directory),
    (["data", "KLSX", "level2", "KLSX20240501_120000_V06"], .file [1]),
    (["level3"], .directory), (["level3", "N0B"], .directory),
    (["level3", "N0B", "LSX_N0B_2024_05_01_12_10_03"], .file [2])]⟩

/-- A site that is named as sites are is read below the root. -/
theorem stays_below_root_of_named_site :
    let s := ((level2 ⟨"/data"⟩ "KLSX").refresh (.ok [("KLSX20240501_120000_V06", false)])).1
    IsOf ⟨"/data"⟩ "KLSX" none s ∧ s.load besideRoot "KLSX20240501_120000_V06" = .ok [1] ∧
    (Path.route ⟨"/data"⟩).Contains s.objectDir.route ∧
    (Path.route ⟨"/data"⟩).Contains s.productsDir.route ∧
    (Path.route ⟨"/data"⟩).Contains (s.objectDir.join ⟨"KLSX20240501_120000_V06"⟩).route := by
  intro s
  have hs : IsOf ⟨"/data"⟩ "KLSX" none s := .refresh _ .created
  have hload : s.load besideRoot "KLSX20240501_120000_V06" = .ok [1] := by decide +kernel
  obtain ⟨-, -, hplain, hread⟩ := stays_below_root_iff hs
  obtain ⟨hobjects, hproducts⟩ := hplain ⟨by decide +kernel, by decide +kernel⟩ (by simp)
  obtain ⟨-, place, -, -, -, hbelow⟩ := hread _ _ _ hload
  exact ⟨hs, hload, hobjects, hproducts, (hbelow hobjects).1⟩

/-- A site of two points is listed and read beside the root. -/
theorem reads_beside_root :
    let s := level3 ⟨"/data"⟩ ".." "N0B"
    IsOf ⟨"/data"⟩ ".." (some "N0B") s ∧
    (s.refresh (besideRoot.list s.objectDir)).2 = .ok ⟨1, 1⟩ ∧
    s.load besideRoot "LSX_N0B_2024_05_01_12_10_03" = .ok [2] ∧
    ¬ (Path.route ⟨"/data"⟩).Contains s.objectDir.route ∧
    ¬ (Path.route ⟨"/data"⟩).Contains
      (s.objectDir.join ⟨"LSX_N0B_2024_05_01_12_10_03"⟩).route := by
  intro s
  exact ⟨.created, by decide +kernel, by decide +kernel, by decide +kernel, by decide +kernel⟩

end DirectorySource

end RadarFeed
