import RadarFeed.Decode.File
import RadarFeed.Text.Quoted

/-!
Records: decoded files with the identity under which they are stored.

A record belongs to the site of its file, in capitals, and to the whole second of the file's time.
Two records are the same only when they have the same serial number; `Record.ofFile` makes a record
with a number of its own.
-/

namespace RadarFeed

/-- A decoded file and where it belongs. -/
structure Record where
  /-- Tells records apart. -/
  serial : Nat
  /-- The site, in capitals. -/
  radarId : String
  group : ProductGroup
  /-- The code of the product; a volume has none. -/
  product : Option String
  /-- The time of the file to the second. -/
  time : Instant
  file : RadarFile
deriving Inhabited

namespace Record

def ofFile (serial : Nat) (file : RadarFile) : Record :=
  ⟨serial, Ascii.upper file.radarId, file.group, file.productCode, file.time.truncate, file⟩

/-- The time of a record that was made of its file is a whole second. -/
theorem truncate_time {r : Record} (h : r = ofFile r.serial r.file) : r.time.truncate = r.time := by
  rw [h]
  exact Instant.truncate_truncate _

/-- The record as users read it. -/
def text (r : Record) : String :=
  let product := match r.product with
    | some p => " " ++ p
    | none => ""
  r.radarId ++ " " ++ r.group.display ++ product ++ " " ++ r.time.secondText

/-- A value that may be missing, as descriptions show it. -/
def describeOption : Option String → String
  | some s => "Some(" ++ s ++ ")"
  | none => "None"

/-- Describes the identity of a record. -/
def describe (r : Record) : String :=
  "RadarProductRecord \x7b radar_id: " ++ Text.quoted r.radarId ++ ", group: " ++ r.group.name ++
    ", product: " ++ describeOption (r.product.map Text.quoted) ++ ", time: " ++ r.time.isoText ++
    " \x7d"

end Record

end RadarFeed
