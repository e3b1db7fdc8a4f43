import RadarFeed.Text.Ascii
import RadarFeed.Text.Utf8

/-!
Radar sites and the table of them.

A table holds at most one site for each id, where the case of ASCII letters in an id does not
count; a site added later replaces an earlier one. The stored site keeps its own spelling of the
id. `find?` looks a site up by its id, `withSuffix` by the last three bytes of an id of four.
-/

namespace RadarFeed

/-- A radar site. -/
structure Site where
  id : String
  /-- The kind of the radar. -/
  kind : String
  latitude : Float
  longitude : Float
  country : String
  state : String
  place : String
deriving Inhabited

namespace Site

/-- The kind of the network of weather surveillance radars. -/
def weatherRadar : String := "wsr88d"

/-- The kind of the terminal radars of airports. -/
def terminalRadar : String := "tdwr"

/-- Stands in for a site that is not in the table. -/
def unknown : Site :=
  ⟨"?", weatherRadar, 0.0, 0.0, "", "", ""⟩

/-- The key of a site in a table. -/
def key (s : Site) : String :=
  Ascii.upper s.id

/-- A terminal radar. -/
def isTerminal (s : Site) : Bool :=
  s.kind = terminalRadar

/-- The length of a range gate in metres. -/
def gateSize (s : Site) : Nat :=
  if s.isTerminal then 150 else 250

end Site

structure SiteTable where
  /-- The sites, each with a key of its own. -/
  sites : List Site
deriving Inhabited

namespace SiteTable

/-- The table without sites. -/
def empty : SiteTable := ⟨[]⟩

/-- The site with a key is replaced, a new one comes last. -/
def put (site : Site) : List Site → List Site
  | [] => [site]
  | s :: rest => if s.key = site.key then site :: rest else s :: put site rest

/-- The table with one more site. -/
def insert (table : SiteTable) (site : Site) : SiteTable :=
  ⟨put site table.sites⟩

/-- The table with further sites, added one after the other. -/
def extend (table : SiteTable) (sites : List Site) : SiteTable :=
  sites.foldl insert table

/-- The site with an id, whatever its letter case. -/
def find? (table : SiteTable) (id : String) : Option Site :=
  table.sites.find? fun s => s.key = Ascii.upper id

/-- The number of sites. -/
def size (table : SiteTable) : Nat :=
  table.sites.length

/-- Whether an id has four bytes and the last three are `suffix`, whatever its letter case. -/
def hasSuffix (suffix id : String) : Bool :=
  Utf8.size id.toList = 4 &&
    match Utf8.splitBytes 1 id.toList with
    | some (_, rest) => Ascii.sameLetters (String.ofList rest) suffix
    | none => false

/-- The sites whose id is one letter and `suffix`, in the order of their ids as stored. -/
def withSuffix (table : SiteTable) (suffix : String) : List Site :=
  (table.sites.filter fun s => hasSuffix suffix s.key).mergeSort fun a b => decide (a.id ≤ b.id)

end SiteTable

end RadarFeed
