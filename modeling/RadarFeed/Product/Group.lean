import RadarFeed.Text.Ascii

/-!
The two groups of products and the moments of Level 2 data, with the names under which users and
data files know them.
-/

namespace RadarFeed

inductive ProductGroup where
  /-- Volumes of base data. -/
  | level2
  /-- Products derived from them. -/
  | level3
deriving DecidableEq, Repr, Inhabited

namespace ProductGroup

/-- Both groups. -/
def all : List ProductGroup := [level2, level3]

/-- The group as users read it. -/
def display : ProductGroup → String
  | level2 => "L2"
  | level3 => "L3"

/-- The group as data files name it. -/
def name : ProductGroup → String
  | level2 => "Level2"
  | level3 => "Level3"

/-- The group that users mean, whatever its letter case. -/
def ofText? (s : String) : Option ProductGroup :=
  all.find? fun g => Ascii.sameLetters s g.display

/-- The group that a data file names. -/
def ofName? (s : String) : Option ProductGroup :=
  all.find? fun g => g.name = s

end ProductGroup

/-- A moment of Level 2 data. -/
inductive Moment where
  | reflectivity
  | velocity
  | spectrumWidth
  | differentialReflectivity
  | differentialPhase
  | correlationCoefficient
  | clutterFilterPowerRemoved
deriving DecidableEq, Repr, Inhabited

namespace Moment

def all : List Moment :=
  [reflectivity, velocity, spectrumWidth, differentialReflectivity, differentialPhase,
    correlationCoefficient, clutterFilterPowerRemoved]

/-- The moment as users and radar messages name it. -/
def display : Moment → String
  | reflectivity => "REF"
  | velocity => "VEL"
  | spectrumWidth => "SW"
  | differentialReflectivity => "ZDR"
  | differentialPhase => "PHI"
  | correlationCoefficient => "RHO"
  | clutterFilterPowerRemoved => "CFP"

/-- The moment as data files name it. -/
def name : Moment → String
  | reflectivity => "Reflectivity"
  | velocity => "Velocity"
  | spectrumWidth => "SpectrumWidth"
  | differentialReflectivity => "DifferentialReflectivity"
  | differentialPhase => "DifferentialPhase"
  | correlationCoefficient => "CorrelationCoefficient"
  | clutterFilterPowerRemoved => "ClutterFilterPowerRemoved"

/-- The moment that users mean, whatever its letter case. -/
def ofText? (s : String) : Option Moment :=
  all.find? fun m => Ascii.sameLetters s m.display

/-- The moment that a data file names. -/
def ofName? (s : String) : Option Moment :=
  all.find? fun m => m.name = s

end Moment

end RadarFeed
