import RadarFeed.Ordered
import RadarFeed.Text.Ascii

/-!
Level 3 products by category.

Each category lists products, each product the codes under which it is offered, one for each
elevation. A `CategoryMap` says which of these codes a source offers; `CategoryMap.update` brings
it up to date with a list of codes, in which letter case does not count.
-/

namespace RadarFeed

/-- A category of Level 3 products. -/
inductive Category where
  | reflectivity
  | velocity
  | stormRelativeVelocity
  | spectrumWidth
  | differentialReflectivity
  | specificDifferentialPhase
  | correlationCoefficient
  | verticallyIntegratedLiquid
  | echoTops
  | hydrometeorClassification
  | precipitationAccumulation
deriving DecidableEq, Repr, Inhabited

namespace Category

/-- All categories, in their order. -/
def all : List Category :=
  [reflectivity, velocity, stormRelativeVelocity, spectrumWidth, differentialReflectivity,
    specificDifferentialPhase, correlationCoefficient, verticallyIntegratedLiquid, echoTops,
    hydrometeorClassification, precipitationAccumulation]

/-- The place of a category in their order. -/
def rank : Category → Nat
  | reflectivity => 0
  | velocity => 1
  | stormRelativeVelocity => 2
  | spectrumWidth => 3
  | differentialReflectivity => 4
  | specificDifferentialPhase => 5
  | correlationCoefficient => 6
  | verticallyIntegratedLiquid => 7
  | echoTops => 8
  | hydrometeorClassification => 9
  | precipitationAccumulation => 10

instance : LT Category := ⟨fun a b => a.rank < b.rank⟩

instance (a b : Category) : Decidable (a < b) :=
  inferInstanceAs (Decidable (a.rank < b.rank))

/-- The category as data files name it. -/
def name : Category → String
  | reflectivity => "Reflectivity"
  | velocity => "Velocity"
  | stormRelativeVelocity => "StormRelativeVelocity"
  | spectrumWidth => "SpectrumWidth"
  | differentialReflectivity => "DifferentialReflectivity"
  | specificDifferentialPhase => "SpecificDifferentialPhase"
  | correlationCoefficient => "CorrelationCoefficient"
  | verticallyIntegratedLiquid => "VerticallyIntegratedLiquid"
  | echoTops => "EchoTops"
  | hydrometeorClassification => "HydrometeorClassification"
  | precipitationAccumulation => "PrecipitationAccumulation"

/-- The category as users read it. -/
def display : Category → String
  | reflectivity => "Reflectivity"
  | velocity => "Velocity"
  | stormRelativeVelocity => "Storm Relative Velocity"
  | spectrumWidth => "Spectrum Width"
  | differentialReflectivity => "Differential Reflectivity"
  | specificDifferentialPhase => "Specific Differential Phase"
  | correlationCoefficient => "Correlation Coefficient"
  | verticallyIntegratedLiquid => "Vertically Integrated Liquid"
  | echoTops => "Echo Tops"
  | hydrometeorClassification => "Hydrometeor Classification"
  | precipitationAccumulation => "Precipitation Accumulation"

/-- The products of a category and their codes. -/
def products : Category → List (String × List String)
  | reflectivity =>
    [("DR", ["N0B", "N1B", "N2B", "N3B"]), ("BREF", ["N0Q", "N1Q", "N2Q", "N3Q"]),
      ("TDR", ["TZ0", "TZ1", "TZ2"])]
  | velocity =>
    [("DV", ["N0G", "N1G", "N2G", "N3G"]), ("BVEL", ["N0U", "N1U", "N2U", "N3U"]),
      ("TDV", ["TV0", "TV1", "TV2"])]
  | stormRelativeVelocity => [("SRM", ["N0S", "N1S", "N2S", "N3S"])]
  | spectrumWidth => [("SW", ["NSW"])]
  | differentialReflectivity => [("DZD", ["N0X", "N1X", "N2X", "N3X"])]
  | specificDifferentialPhase => [("DKD", ["N0K", "N1K", "N2K", "N3K"])]
  | correlationCoefficient => [("DCC", ["N0C", "N1C", "N2C", "N3C"])]
  | verticallyIntegratedLiquid => [("DVL", ["DVL"])]
  | echoTops => [("EET", ["EET"]), ("ET", ["NET"])]
  | hydrometeorClassification =>
    [("DHC", ["N0H", "N1H", "N2H", "N3H"]), ("HHC", ["HHC"])]
  | precipitationAccumulation =>
    [("OHA", ["OHA"]), ("DAA", ["DAA"]), ("DTA", ["DTA"]), ("DSA", ["DSA"])]

/-- The category that a data file names. -/
def ofName? (s : String) : Option Category :=
  all.find? fun c => c.name = s

/-- One of the products of a category has a code, in some letter case. -/
def hasCode (code : String) (c : Category) : Bool :=
  c.products.any fun entry => entry.2.any fun listed => Ascii.sameLetters listed code

/-- The category of a product code, whatever its letter case. -/
def of? (code : String) : Option Category :=
  all.find? (hasCode code)

end Category

/-- Products with their codes, in the order of the names of the products. -/
abbrev ProductMap := Ordered String (List String)

/-- The products that a source offers, by category, in the order of the categories. -/
abbrev CategoryMap := Ordered Category ProductMap

namespace CategoryMap

/-- A code is offered when it is available in some letter case. -/
def isOffered (available : List String) (code : String) : Bool :=
  available.any fun a => Ascii.sameLetters a code

/-- Adds a product of the table, if some of its codes are offered. -/
def addProduct (available : List String) (map : ProductMap) (entry : String × List String) :
    ProductMap :=
  match entry.2.filter (isOffered available) with
  | [] => map
  | codes => map.insert entry.1 codes

/-- The products of a category of which some code is offered. -/
def offered (available : List String) (category : Category) : ProductMap :=
  category.products.foldl (addProduct available) []

/-- Brings one category up to date. -/
def updateCategory (available : List String) (map : CategoryMap) (category : Category) :
    CategoryMap :=
  match offered available category with
  | [] => map.erase category
  | products => map.insert category products

/-- Brings all categories up to date. -/
def update (map : CategoryMap) (available : List String) : CategoryMap :=
  Category.all.foldl (updateCategory available) map

end CategoryMap

end RadarFeed
