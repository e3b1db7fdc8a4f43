import Mathlib.Data.List.Sort
import RadarFeed.Product.Category

/-!
The products that a source offers, as an index of the codes that are available.

The table of products lists each code once (`Category.eq_of_lists`), so a code has one category
(`Category.of?_eq_some_iff`). Bringing one category up to date replaces what is in the map under it
(`mem_updateCategory_iff`), and so nothing that was in the map is left when all are up to date
(`mem_update_iff`). What is there then is an index of the codes that are available (`IsIndex`).
-/

namespace RadarFeed

namespace Category

variable {c d : Category} {product product' code code' : String}

instance : Std.Irrefl (α := Category) (· < ·) :=
  ⟨fun c => Nat.lt_irrefl c.rank⟩

instance : Trans (α := Category) (· < ·) (· < ·) (· < ·) :=
  ⟨fun h h' => Nat.lt_trans h h'⟩

instance : Std.Trichotomous (α := Category) (· < ·) :=
  ⟨fun c d => by cases c <;> cases d <;> decide⟩

/-- The table lists a code under a category and product. -/
def Lists (c : Category) (product code : String) : Prop :=
  ∃ codes, (product, codes) ∈ c.products ∧ code ∈ codes

theorem mem_all (c : Category) : c ∈ all := by
  cases c <;> decide

/-- The names of the products of a category differ. -/
theorem products_distinct (c : Category) : c.products.Pairwise fun e e' => e.1 ≠ e'.1 := by
  cases c <;> decide

theorem nodup_codes {codes : List String} (h : (product, codes) ∈ c.products) : codes.Nodup := by
  have hall : ∀ e ∈ c.products, e.2.Nodup := by
    cases c <;> decide
  exact hall _ h

/-- No two codes of the table have the same letters. -/
theorem eq_of_lists (h : c.Lists product code) (h' : d.Lists product' code')
    (hletters : Ascii.sameLetters code code' = true) :
    c = d ∧ product = product' ∧ code = code' := by
  have hall : ∀ c ∈ all, ∀ d ∈ all, ∀ e ∈ c.products, ∀ e' ∈ d.products, ∀ code ∈ e.2,
      ∀ code' ∈ e'.2, Ascii.sameLetters code code' = true →
        c = d ∧ e.1 = e'.1 ∧ code = code' := by
    decide +kernel
  obtain ⟨codes, he, hcode⟩ := h
  obtain ⟨codes', he', hcode'⟩ := h'
  exact hall c c.mem_all d d.mem_all _ he _ he' _ hcode _ hcode' hletters

theorem hasCode_iff : hasCode code c = true ↔
    ∃ product listed, c.Lists product listed ∧ Ascii.sameLetters listed code = true := by
  simp only [hasCode, List.any_eq_true, Lists]
  constructor
  · rintro ⟨⟨product, codes⟩, he, listed, hlisted, hletters⟩
    exact ⟨product, listed, ⟨codes, he, hlisted⟩, hletters⟩
  · rintro ⟨product, listed, ⟨codes, he, hlisted⟩, hletters⟩
    exact ⟨(product, codes), he, listed, hlisted, hletters⟩

/-- A code has the category under which the table lists it in some letter case. -/
theorem of?_eq_some_iff : of? code = some c ↔
    ∃ product listed, c.Lists product listed ∧ Ascii.sameLetters listed code = true := by
  rw [← hasCode_iff, of?]
  constructor
  · exact List.find?_some
  · intro h
    obtain ⟨d, hd⟩ := Option.isSome_iff_exists.1 (List.find?_isSome.2 ⟨c, c.mem_all, h⟩)
    obtain ⟨product, listed, hlisted, hletters⟩ := hasCode_iff.1 h
    obtain ⟨product', listed', hlisted', hletters'⟩ := hasCode_iff.1 (List.find?_some hd)
    have hsame : Ascii.sameLetters listed' listed = true := by
      rw [Ascii.sameLetters_iff] at hletters hletters' ⊢
      rw [hletters, hletters']
    obtain ⟨rfl, -⟩ := eq_of_lists hlisted' hlisted hsame
    exact hd

end Category

namespace CategoryMap

open Ordered Category

variable {available available' : List String} {map map' : CategoryMap} {category : Category}
  {product code : String} {products : ProductMap} {codes : List String}

theorem isOffered_iff : isOffered available code = true ↔
    ∃ a ∈ available, Ascii.sameLetters a code = true := by
  rw [isOffered, List.any_eq_true]

/-! ## One category -/

/-- The entry of a product of the table, with the codes that are offered. -/
def IsEntry (available : List String) (d e : String × List String) : Prop :=
  e = (d.1, d.2.filter (isOffered available)) ∧ e.2 ≠ []

theorem isOrdered_addProduct {m : ProductMap} {d : String × List String} (h : IsOrdered m) :
    IsOrdered (addProduct available m d) := by
  unfold addProduct
  split
  · exact h
  · exact isOrdered_insert h

theorem mem_addProduct_iff {m : ProductMap} {d e : String × List String} (h : IsOrdered m)
    (hnew : ∀ e ∈ m, e.1 ≠ d.1) :
    e ∈ addProduct available m d ↔ e ∈ m ∨ IsEntry available d e := by
  unfold addProduct IsEntry
  split
  · rename_i hfilter
    rw [hfilter]
    grind
  · rename_i hfilter
    rw [mem_insert_iff h]
    grind

/-- Products are added one after the other, each under a name of its own. -/
theorem mem_foldl_addProduct_iff {m : ProductMap} {table : List (String × List String)}
    {e : String × List String} (hdistinct : table.Pairwise fun d d' => d.1 ≠ d'.1)
    (h : IsOrdered m) (hnew : ∀ e ∈ m, ∀ d ∈ table, e.1 ≠ d.1) :
    e ∈ table.foldl (addProduct available) m ↔ e ∈ m ∨ ∃ d ∈ table, IsEntry available d e := by
  induction table generalizing m with
  | nil => simp
  | cons d table ih =>
    obtain ⟨hd, hdistinct⟩ := List.pairwise_cons.1 hdistinct
    have hmem : ∀ e, e ∈ addProduct available m d ↔ e ∈ m ∨ IsEntry available d e := fun e =>
      mem_addProduct_iff h fun e he => hnew e he d List.mem_cons_self
    have hnew' : ∀ e ∈ addProduct available m d, ∀ d' ∈ table, e.1 ≠ d'.1 := by
      intro e he d' hd'
      rcases (hmem e).1 he with he | ⟨rfl, -⟩
      · exact hnew e he d' (List.mem_cons_of_mem d hd')
      · exact hd d' hd'
    rw [List.foldl_cons, ih hdistinct (isOrdered_addProduct h) hnew', hmem, or_assoc]
    simp

theorem isOrdered_offered : IsOrdered (offered available category) :=
  List.foldlRecOn _ _ .nil fun _ h _ _ => isOrdered_addProduct h

theorem mem_offered_iff : (product, codes) ∈ offered available category ↔
    ∃ listed, (product, listed) ∈ category.products ∧
      codes = listed.filter (isOffered available) ∧ codes ≠ [] := by
  rw [offered, mem_foldl_addProduct_iff category.products_distinct .nil (by simp)]
  simp [IsEntry, and_assoc]

/-- What is in the map under a category is replaced, and nothing else. -/
theorem mem_updateCategory_iff {e : Category × ProductMap} (h : IsOrdered map) :
    e ∈ updateCategory available map category ↔ (e.1 ≠ category ∧ e ∈ map) ∨
      (e = (category, offered available category) ∧ e.2 ≠ []) := by
  unfold updateCategory
  split
  · rename_i hnone
    rw [mem_erase_iff, hnone]
    grind
  · rename_i hsome
    rw [mem_insert_iff h]
    grind

theorem isOrdered_updateCategory (h : IsOrdered map) :
    IsOrdered (updateCategory available map category) := by
  unfold updateCategory
  split
  · exact isOrdered_erase h
  · exact isOrdered_insert h

/-! ## All categories -/

theorem isOrdered_foldl (h : IsOrdered map) (categories : List Category) :
    IsOrdered (categories.foldl (updateCategory available) map) :=
  List.foldlRecOn _ _ h fun _ h _ _ => isOrdered_updateCategory h

/-- Once some categories are up to date, the map has what is offered under them. -/
theorem mem_foldl_updateCategory_iff {e : Category × ProductMap} (h : IsOrdered map)
    (categories : List Category) : e ∈ categories.foldl (updateCategory available) map ↔
      (e.1 ∉ categories ∧ e ∈ map) ∨
        (e.1 ∈ categories ∧ e.2 = offered available e.1 ∧ e.2 ≠ []) := by
  induction categories generalizing map with
  | nil => simp
  | cons c categories ih =>
    rw [List.foldl_cons, ih (isOrdered_updateCategory h), mem_updateCategory_iff h]
    obtain ⟨d, products⟩ := e
    simp only [List.mem_cons, Prod.mk.injEq]
    grind

/-- Nothing of the map is left. -/
theorem mem_update_iff (h : IsOrdered map) : (category, products) ∈ update map available ↔
    products = offered available category ∧ products ≠ [] := by
  rw [update, mem_foldl_updateCategory_iff h]
  simp [mem_all]

/-- The map has a code under a category and product. -/
def Offers (map : CategoryMap) (category : Category) (product code : String) : Prop :=
  ∃ products codes, (category, products) ∈ map ∧ (product, codes) ∈ products ∧ code ∈ codes

/-- The map has the codes of the table that are available, in the order of the table, and under
nothing else. -/
structure IsIndex (available : List String) (map : CategoryMap) : Prop where
  ordered : IsOrdered map
  products : ∀ category products, (category, products) ∈ map → IsOrdered products ∧ products ≠ []
  codes : ∀ category products product codes, (category, products) ∈ map →
    (product, codes) ∈ products → codes ≠ [] ∧ codes.Nodup ∧
      ∃ listed, (product, listed) ∈ category.products ∧ codes.Sublist listed
  offers_iff : ∀ category product code, Offers map category product code ↔
    category.Lists product code ∧ ∃ a ∈ available, Ascii.sameLetters a code = true

theorem offers_update_iff (h : IsOrdered map) :
    Offers (update map available) category product code ↔
      category.Lists product code ∧ ∃ a ∈ available, Ascii.sameLetters a code = true := by
  rw [← isOffered_iff]
  constructor
  · rintro ⟨products, codes, he, hproduct, hcode⟩
    obtain ⟨rfl, -⟩ := (mem_update_iff h).1 he
    obtain ⟨listed, hlisted, rfl, -⟩ := mem_offered_iff.1 hproduct
    obtain ⟨hcode, hoffered⟩ := List.mem_filter.1 hcode
    exact ⟨⟨listed, hlisted, hcode⟩, hoffered⟩
  · rintro ⟨⟨listed, hlisted, hcode⟩, hoffered⟩
    have hfilter : code ∈ listed.filter (isOffered available) :=
      List.mem_filter.2 ⟨hcode, hoffered⟩
    have hproduct : (product, listed.filter (isOffered available)) ∈ offered available category :=
      mem_offered_iff.2 ⟨listed, hlisted, rfl, List.ne_nil_of_mem hfilter⟩
    exact ⟨_, _, (mem_update_iff h).2 ⟨rfl, List.ne_nil_of_mem hproduct⟩, hproduct, hfilter⟩

theorem isIndex_update (h : IsOrdered map) : IsIndex available (update map available) where
  ordered := isOrdered_foldl h all
  products category products he := by
    obtain ⟨rfl, hne⟩ := (mem_update_iff h).1 he
    exact ⟨isOrdered_offered, hne⟩
  codes category products product codes he hproduct := by
    obtain ⟨rfl, -⟩ := (mem_update_iff h).1 he
    obtain ⟨listed, hlisted, rfl, hne⟩ := mem_offered_iff.1 hproduct
    exact ⟨hne, (nodup_codes hlisted).filter _, listed, hlisted, List.filter_sublist⟩
  offers_iff category product code := offers_update_iff h

/-! ## Lists of the same codes -/

/-- Two lists have the same codes, whatever their order, repetitions and letter case. -/
def SameCodes (available available' : List String) : Prop :=
  ∀ s, s ∈ available.map Ascii.upper ↔ s ∈ available'.map Ascii.upper

theorem isOffered_congr (h : SameCodes available available') :
    isOffered available = isOffered available' := by
  have hupper : ∀ available code, isOffered available code = true ↔
      Ascii.upper code ∈ available.map Ascii.upper := by
    intro available code
    simp only [isOffered_iff, Ascii.sameLetters_iff, List.mem_map]
  funext code
  rw [Bool.eq_iff_iff, hupper, hupper, h]

/-- An ordered map is known by its entries. -/
theorem eq_of_mem_iff (h : IsOrdered map) (h' : IsOrdered map') (hmem : ∀ e, e ∈ map ↔ e ∈ map') :
    map = map' := by
  have : Std.Irrefl fun a b : Category × ProductMap => a.1 < b.1 :=
    ⟨fun e => Std.Irrefl.irrefl e.1⟩
  have : Std.Antisymm fun a b : Category × ProductMap => a.1 < b.1 :=
    ⟨fun a b hab hba => absurd (Trans.trans hab hba : a.1 < a.1) (Std.Irrefl.irrefl a.1)⟩
  exact List.Pairwise.eq_of_mem_iff h h' hmem

/-- What the map was does not count. -/
theorem update_congr (h : IsOrdered map) (h' : IsOrdered map')
    (hsame : SameCodes available available') : update map available = update map' available' := by
  have hadd : addProduct available = addProduct available' := by
    funext m d
    rw [addProduct, addProduct, isOffered_congr hsame]
  refine eq_of_mem_iff (isOrdered_foldl h all) (isOrdered_foldl h' all) ?_
  rintro ⟨category, products⟩
  show _ ∈ update map available ↔ _ ∈ update map' available'
  rw [mem_update_iff h, mem_update_iff h', offered, offered, hadd]

/-- **The index of products.** Whatever was in the map, once it is brought up to date it is the
index of the codes that are available, the same for any other list of the same codes, and stays so.
Each code in it has the category under which it stands, and an available code has a category exactly
if the map has the code under it. -/
theorem update_isIndex (map : CategoryMap) (h : IsOrdered map) (available : List String) :
    let index := update map available
    IsIndex available index ∧
      (∀ map' available', IsOrdered map' → SameCodes available available' →
        update map' available' = index) ∧
      update index available = index ∧
      (∀ category product code, Offers index category product code →
        Category.of? code = some category) ∧
      ∀ a ∈ available, ∀ category, Category.of? a = some category ↔
        ∃ product code, Offers index category product code ∧
          Ascii.sameLetters a code = true := by
  intro index
  have hindex : IsIndex available index := isIndex_update h
  have hsame : SameCodes available available := fun s => Iff.rfl
  refine ⟨hindex, fun map' available' h' hsame => (update_congr h h' hsame).symm,
    update_congr hindex.ordered h hsame, fun category product code hoffers => ?_,
    fun a ha category => ?_⟩
  · obtain ⟨hlists, -⟩ := (hindex.offers_iff category product code).1 hoffers
    exact Category.of?_eq_some_iff.2 ⟨product, code, hlists, Ascii.sameLetters_refl code⟩
  · simp only [Category.of?_eq_some_iff, hindex.offers_iff]
    constructor
    · rintro ⟨product, code, hlists, hletters⟩
      rw [Ascii.sameLetters_comm] at hletters
      exact ⟨product, code, ⟨hlists, a, ha, hletters⟩, hletters⟩
    · rintro ⟨product, code, ⟨hlists, -⟩, hletters⟩
      rw [Ascii.sameLetters_comm] at hletters
      exact ⟨product, code, hlists, hletters⟩

/-- A code in small letters, over a map of what was offered before. -/
theorem update_isIndex_of_small_letters :
    let before : CategoryMap :=
      [(.reflectivity, [("BREF", ["N0Q"])]), (.echoTops, [("ET", ["NET"])])]
    let index := update before ["n1b", "ZZZ", "N0B", "n1b"]
    IsOrdered before ∧ Offers index .reflectivity "DR" "N1B" ∧
      ¬ Offers index .echoTops "ET" "NET" ∧ update [] ["N0B", "N1B", "zzz"] = index ∧
      Category.of? "n1b" = some .reflectivity := by
  intro before index
  have hbefore : IsOrdered before := by
    simp only [IsOrdered, before]
    decide
  obtain ⟨hindex, hcongr, -, -, hof⟩ :=
    update_isIndex before hbefore ["n1b", "ZZZ", "N0B", "n1b"]
  have hoffers : Offers index .reflectivity "DR" "N1B" :=
    (hindex.offers_iff _ _ _).2
      ⟨⟨["N0B", "N1B", "N2B", "N3B"], by decide, by decide⟩, "n1b", by decide, by decide⟩
  refine ⟨hbefore, hoffers, fun hnet => ?_, hcongr [] _ .nil fun s => ?_,
    (hof "n1b" (by decide) _).2 ⟨"DR", "N1B", hoffers, by decide⟩⟩
  · obtain ⟨-, a, ha, hletters⟩ := (hindex.offers_iff _ _ _).1 hnet
    have hnone : ∀ a ∈ ["n1b", "ZZZ", "N0B", "n1b"], Ascii.sameLetters a "NET" = false := by decide
    rw [hnone a ha] at hletters
    cases hletters
  · have hupper : ["n1b", "ZZZ", "N0B", "n1b"].map Ascii.upper = ["N1B", "ZZZ", "N0B", "N1B"] := by
      decide
    have hupper' : ["N0B", "N1B", "zzz"].map Ascii.upper = ["N0B", "N1B", "ZZZ"] := by decide
    rw [hupper, hupper']
    grind

end CategoryMap

end RadarFeed
