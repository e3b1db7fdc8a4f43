import RadarFeed.Proofs.File.Tree
import RadarFeed.Proofs.Source.Listing
import RadarFeed.Proofs.Text.Ascii

/-!
Reading the products that a source offers.

A product is offered under the capitals of the name of its directory, and read in the directory
whose name are those capitals. These are one directory exactly if its name is in capitals and its
path is not too long (`offered_is_read_iff`). The objects of a directory whose name is not are never
found: unless there is another one named by the capitals, the product has none.
-/

namespace RadarFeed

theorem IsFileName.upper {name : String} (h : IsFileName name) : IsFileName (Ascii.upper name) where
  ne_empty := by
    rw [Ne, Ascii.upper_eq_iff (by simp)]
    exact h.ne_empty
  ne_here := by
    rw [Ne, Ascii.upper_eq_iff (by simp)]
    exact h.ne_here
  ne_up := by
    rw [Ne, Ascii.upper_eq_iff (by simp)]
    exact h.ne_up
  slash := by
    rw [Ascii.mem_upper_iff (by decide)]
    exact h.slash
  zero := by
    rw [Ascii.mem_upper_iff (by decide)]
    exact h.zero
  size := by
    rw [Utf8.size_upper]
    exact h.size

/-- The directory `dir` has a directory `name`, at `place`. -/
def FileTree.IsSubdirectory (tree : FileTree) (dir : Path) (name : String) (place : List String) :
    Prop :=
  ∃ above, tree.locate dir = .ok above ∧ tree.node? above = some .directory ∧
    place = above ++ [name] ∧ tree.node? place = some .directory

namespace DirectorySource

variable {tree : FileTree} {root : Path} {s : DirectorySource} {names : List String}
  {radarId product name key : String} {place : List String} {t : Instant}

/-! ## Products on offer -/

/-- Where the directories of the products of a site are. -/
def productsDirOf (root : Path) (radarId : String) : Path :=
  (siteDir root radarId).join ⟨"level3"⟩

theorem mem_productsOf {listing : List (String × Bool)} :
    product ∈ productsOf listing ↔ ∃ name, (name, true) ∈ listing ∧ Ascii.upper name = product := by
  simp [productsOf]

/-- What is offered are the capitals of the names of directories. -/
theorem mem_available_iff (htree : tree.Sound)
    (hok : (s.requestProducts (tree.list s.productsDir)).2 = .ok ()) :
    product ∈ (s.requestProducts (tree.list s.productsDir)).1.available ↔
      ∃ name place, tree.IsSubdirectory s.productsDir name place ∧ Ascii.upper name = product := by
  cases hlist : tree.list s.productsDir with
  | ok listing =>
    obtain ⟨above, habove, hdir⟩ := FileTree.directory_of_list hlist
    show product ∈ productsOf listing ↔ _
    rw [mem_productsOf]
    refine exists_congr fun name => ?_
    rw [FileTree.mem_list_iff htree hlist habove]
    constructor
    · rintro ⟨⟨node, hnode, he⟩, hupper⟩
      obtain rfl : node = .directory := by simpa using he.symm
      exact ⟨_, ⟨above, habove, hdir, rfl, hnode⟩, hupper⟩
    · rintro ⟨place, ⟨above', habove', -, rfl, hnode⟩, hupper⟩
      obtain rfl : above' = above := Except.ok.inj (habove'.symm.trans habove)
      exact ⟨⟨_, hnode, rfl⟩, hupper⟩
  | error e =>
    -- nothing is offered where the directory does not exist
    rw [hlist] at hok
    have hnone : ∀ name place, ¬ tree.IsSubdirectory s.productsDir name place := by
      rintro name place ⟨above, habove, hdir, -⟩
      obtain ⟨listing, hlist'⟩ := FileTree.exists_list habove hdir
      rw [hlist] at hlist'
      cases hlist'
    cases e with
    | notFound => simp [requestProducts, hnone]
    | _ => cases hok

/-! ## Reading them -/

/-- The spelling of a product does not matter to where it is read. -/
theorem level3_upper (root : Path) (radarId product : String) :
    level3 root radarId (Ascii.upper product) = level3 root radarId product := by
  simp [level3, Ascii.upper_upper]

/-- The objects of a product are read below the capitals of its name. -/
theorem locate_objectDir {above : List String}
    (habove : tree.locate (productsDirOf root radarId) = .ok above)
    (hdir : tree.node? above = some .directory) (hname : IsFileName name) :
    tree.locate (level3 root radarId (Ascii.upper name)).objectDir =
      if FileTree.maxPath < Utf8.size (level3 root radarId (Ascii.upper name)).objectDir.text.toList
      then .error .nameTooLong
      else if (tree.node? (above ++ [Ascii.upper name])).isSome then
        .ok (above ++ [Ascii.upper name])
      else .error .notFound := by
  rw [level3_upper]
  exact FileTree.locate_join habove hdir hname.upper

/-- The directory that is read is the one that made the product be offered if that is spelled in
capitals. -/
theorem locate_objectDir_eq_iff (htree : tree.Sound)
    (h : tree.IsSubdirectory (productsDirOf root radarId) name place) :
    tree.locate (level3 root radarId (Ascii.upper name)).objectDir = .ok place ↔
      Ascii.upper name = name ∧ Utf8.size
        (level3 root radarId (Ascii.upper name)).objectDir.text.toList ≤ FileTree.maxPath := by
  obtain ⟨above, habove, hdir, rfl, hnode⟩ := h
  have hname : IsFileName name :=
    htree.of_node? (Option.isSome_iff_exists.2 ⟨_, hnode⟩) name (by simp)
  rw [locate_objectDir habove hdir hname]
  split
  · rename_i hlong
    simp [Nat.not_le.2 hlong]
  · rename_i hlong
    split
    · simp [Nat.not_lt.1 hlong]
    · rename_i hnone
      simp only [reduceCtorEq, false_iff, not_and]
      intro hupper
      rw [hupper, hnode] at hnone
      exact absurd rfl hnone

/-- Where nothing is named by the capitals of a name, no directory is found to be read. -/
theorem list_objectDir_of_none (htree : tree.Sound)
    (h : tree.IsSubdirectory (productsDirOf root radarId) name place)
    (hnone : tree.node? (place.dropLast ++ [Ascii.upper name]) = none)
    (hsize : Utf8.size (level3 root radarId (Ascii.upper name)).objectDir.text.toList ≤
      FileTree.maxPath) :
    tree.list (level3 root radarId (Ascii.upper name)).objectDir = .error .notFound := by
  obtain ⟨above, habove, hdir, rfl, hnode⟩ := h
  have hname : IsFileName name :=
    htree.of_node? (Option.isSome_iff_exists.2 ⟨_, hnode⟩) name (by simp)
  rw [List.dropLast_concat] at hnone
  have hlocate : tree.locate (level3 root radarId (Ascii.upper name)).objectDir =
      .error .notFound := by
    rw [locate_objectDir habove hdir hname, if_neg (Nat.not_lt.2 hsize), hnone]
    rfl
  rw [FileTree.list, hlocate]
  rfl

/-- Names of which one is that of an object are not counted as none. -/
theorem total_pos (h : s.Found names t key) : 0 < (s.takeListing names).2.total :=
  Timeline.size_ofList_pos (List.ne_nil_of_mem (mem_eligible.2 h))

/-- An object in the directory that is read is counted. -/
theorem exists_news (htree : tree.Sound) (hplace : tree.locate s.objectDir = .ok place)
    (hdir : tree.node? place = some .directory) (hkey : (tree.node? (place ++ [key])).isSome)
    (hobject : s.IsObject key t) :
    ∃ news, (s.refresh (tree.list s.objectDir)).2 = .ok news ∧ 0 < news.total := by
  obtain ⟨listing, hlist⟩ := FileTree.exists_list hplace hdir
  obtain ⟨node, hnode⟩ := Option.isSome_iff_exists.1 hkey
  have hmem := (FileTree.mem_list_iff htree hlist hplace).2 ⟨node, hnode, rfl⟩
  rw [hlist]
  exact ⟨_, rfl, total_pos ⟨List.mem_map_of_mem hmem, hobject⟩⟩

/-- **Reading what is offered.** Once a source of a site has looked for products, it offers the
capitals of the names of their directories. The source of such a product reads the directory that
made it be offered exactly if the name of that is in capitals, and the path not too long; then it
counts the objects there. Where nothing has the capitals as its name the source finds no objects,
whatever is in the directory. -/
theorem offered_is_read_iff (htree : tree.Sound) (hs : s.productsDir = productsDirOf root radarId)
    (hok : (s.requestProducts (tree.list s.productsDir)).2 = .ok ()) :
    let offered := (s.requestProducts (tree.list s.productsDir)).1.available
    (∀ product, product ∈ offered ↔ ∃ name place,
      tree.IsSubdirectory s.productsDir name place ∧ Ascii.upper name = product) ∧
    ∀ name place, tree.IsSubdirectory s.productsDir name place →
      let d := level3 root radarId (Ascii.upper name)
      let fits := Utf8.size d.objectDir.text.toList ≤ FileTree.maxPath
      (tree.locate d.objectDir = .ok place ↔ Ascii.upper name = name ∧ fits) ∧
      (tree.locate d.objectDir = .ok place → ∀ key t, (tree.node? (place ++ [key])).isSome →
        d.IsObject key t →
        ∃ news, (d.refresh (tree.list d.objectDir)).2 = .ok news ∧ 0 < news.total) ∧
      (fits → tree.node? (place.dropLast ++ [Ascii.upper name]) = none →
        (d.refresh (tree.list d.objectDir)).2 = .ok ⟨0, 0⟩) := by
  intro offered
  refine ⟨fun product => mem_available_iff htree hok, ?_⟩
  rw [hs]
  intro name place h d fits
  refine ⟨locate_objectDir_eq_iff htree h, ?_, ?_⟩
  · intro hplace key t hkey hobject
    obtain ⟨above, -, -, -, hdir⟩ := h
    exact exists_news htree hplace hdir hkey hobject
  · intro hsize hnone
    rw [list_objectDir_of_none htree h hnone hsize]
    rfl

/-- Two products of a site, one in a directory whose name is not in capitals. -/
def twoProducts : FileTree :=
  ⟨[], [(["KLSX"], .directory), (["KLSX", "level3"], .directory),
    (["KLSX", "level3", "N0B"], .directory),
    (["KLSX", "level3", "N0B", "LSX_N0B_2024_05_01_12_10_03"], .file []),
    (["KLSX", "level3", "n0g"], .directory),
    (["KLSX", "level3", "n0g", "LSX_N0G_2024_05_01_12_10_03"], .file [])]⟩

theorem sound_twoProducts : twoProducts.Sound :=
  ⟨by decide +kernel, by decide +kernel, by decide +kernel⟩

theorem locate_twoProducts :
    twoProducts.locate (productsDirOf ⟨"/"⟩ "KLSX") = .ok ["KLSX", "level3"] := by
  decide +kernel

theorem isSubdirectory_twoProducts (name : String)
    (h : twoProducts.node? ["KLSX", "level3", name] = some .directory) :
    twoProducts.IsSubdirectory (productsDirOf ⟨"/"⟩ "KLSX") name ["KLSX", "level3", name] :=
  ⟨["KLSX", "level3"], locate_twoProducts, by decide +kernel, rfl, h⟩

theorem requestProducts_twoProducts :
    ((level2 ⟨"/"⟩ "KLSX").requestProducts
      (twoProducts.list (level2 ⟨"/"⟩ "KLSX").productsDir)).2 = .ok () := by
  decide +kernel

/-- One of two products is read, and the other one is not. -/
theorem offered_is_read_of_twoProducts :
    let s := level2 ⟨"/"⟩ "KLSX"
    let offered := (s.requestProducts (twoProducts.list s.productsDir)).1.available
    let d := level3 ⟨"/"⟩ "KLSX" "N0B"
    let d' := level3 ⟨"/"⟩ "KLSX" "N0G"
    ("N0B" ∈ offered ∧ "N0G" ∈ offered) ∧
    twoProducts.locate d.objectDir = .ok ["KLSX", "level3", "N0B"] ∧
    (∃ news, (d.refresh (twoProducts.list d.objectDir)).2 = .ok news ∧ 0 < news.total) ∧
    (d'.refresh (twoProducts.list d'.objectDir)).2 = .ok ⟨0, 0⟩ := by
  have hdir : (level2 ⟨"/"⟩ "KLSX").productsDir = productsDirOf ⟨"/"⟩ "KLSX" := rfl
  obtain ⟨hoffered, hread⟩ :=
    offered_is_read_iff sound_twoProducts hdir requestProducts_twoProducts
  have hcapitals := isSubdirectory_twoProducts "N0B" (by decide +kernel)
  have hsmall := isSubdirectory_twoProducts "n0g" (by decide +kernel)
  have hupper : Ascii.upper "N0B" = "N0B" := by decide +kernel
  have hupper' : Ascii.upper "n0g" = "N0G" := by decide +kernel
  obtain ⟨hiff, hcounts, -⟩ := hread _ _ hcapitals
  obtain ⟨-, -, hempty⟩ := hread _ _ hsmall
  rw [hupper] at hiff hcounts
  rw [hupper'] at hempty
  have hplace := hiff.2 ⟨rfl, by decide +kernel⟩
  refine ⟨⟨?_, ?_⟩, hplace, ?_, hempty (by decide +kernel) (by decide +kernel)⟩
  · exact (hoffered _).2 ⟨_, _, hcapitals, hupper⟩
  · exact (hoffered _).2 ⟨_, _, hsmall, hupper'⟩
  have hobject : (level3 ⟨"/"⟩ "KLSX" "N0B").IsObject "LSX_N0B_2024_05_01_12_10_03"
      ⟨1714565403, 0⟩ := by
    rw [← keyTime_eq_some_iff]
    decide +kernel
  exact hcounts hplace _ _ (by decide +kernel) hobject

/-- A product that is offered has no objects, although there is one in its directory. -/
theorem offered_but_not_read :
    ¬ ("N0G" ∈ ((level2 ⟨"/"⟩ "KLSX").requestProducts
        (twoProducts.list (level2 ⟨"/"⟩ "KLSX").productsDir)).1.available →
      (∃ name place key t,
        twoProducts.IsSubdirectory (level2 ⟨"/"⟩ "KLSX").productsDir name place ∧
        Ascii.upper name = "N0G" ∧ (twoProducts.node? (place ++ [key])).isSome ∧
        (level3 ⟨"/"⟩ "KLSX" "N0G").IsObject key t) →
      ((level3 ⟨"/"⟩ "KLSX" "N0G").refresh
        (twoProducts.list (level3 ⟨"/"⟩ "KLSX" "N0G").objectDir)).2 ≠ .ok ⟨0, 0⟩) := by
  have hsmall := isSubdirectory_twoProducts "n0g" (by decide +kernel)
  have hupper : Ascii.upper "n0g" = "N0G" := by decide +kernel
  have hobject : (level3 ⟨"/"⟩ "KLSX" "N0G").IsObject "LSX_N0G_2024_05_01_12_10_03"
      ⟨1714565403, 0⟩ := by
    rw [← keyTime_eq_some_iff]
    decide +kernel
  intro h
  refine h ?_ ⟨_, _, _, _, hsmall, hupper, by decide +kernel, hobject⟩ (by decide +kernel)
  exact (mem_available_iff sound_twoProducts requestProducts_twoProducts).2
    ⟨_, _, hsmall, hupper⟩

end DirectorySource

end RadarFeed
