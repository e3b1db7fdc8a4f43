import RadarFeed.Site.Builtin
import RadarFeed.Json.Field

/-!
Files with radar sites: a JSON array of sites.

A site needs an id, a latitude and a longitude. A file is taken as a whole or not at all.
-/

namespace RadarFeed

open Json (Value)

/-- The names of the fields of a site, in their order. -/
def Site.fieldNames : List String :=
  ["id", "type", "latitude", "longitude", "country", "state", "place"]

/-- Reads a site. -/
def Site.ofJson (v : Value) : Option Site := do
  match ← v.record? fieldNames with
  | [id, kind, latitude, longitude, country, state, place] =>
    let id ← Value.required Value.text? id
    let kind ← Value.withDefault weatherRadar Value.text? kind
    let latitude ← Value.required Value.float? latitude
    let longitude ← Value.required Value.float? longitude
    let country ← Value.withDefault "" Value.text? country
    let state ← Value.withDefault "" Value.text? state
    let place ← Value.withDefault "" Value.text? place
    return ⟨id, kind, latitude, longitude, country, state, place⟩
  | _ => none

namespace SiteTable

def readFile (bytes : List UInt8) : Option (List Site) := do
  let items ← (← Value.read bytes).items?
  items.mapM Site.ofJson

/-- The table with the sites of a file and the number of sites that the file lists. -/
def mergeFile (table : SiteTable) (bytes : List UInt8) : Option (SiteTable × Nat) := do
  let sites ← readFile bytes
  return (table.extend sites, sites.length)

end SiteTable

end RadarFeed
