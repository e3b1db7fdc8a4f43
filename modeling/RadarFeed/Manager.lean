import RadarFeed.Cache
import RadarFeed.Channel
import RadarFeed.Geodesy.Grid
import RadarFeed.Keyed
import RadarFeed.Product.Category
import RadarFeed.Refresh.Machine
import RadarFeed.Settings
import RadarFeed.Volume.Scan

/-!
Managers: all that is known about one radar site.

A manager has a cache for the volumes of its site and one for each Level 3 product, under the code
in capitals; likewise a machine that asks the source of the volumes for news and one for each
product that was ever asked for. `level2Record` and `level3Record` are what its caches give for a
time, `store` is how a record gets there.
-/

namespace RadarFeed

/-- The manager of a site. -/
structure Manager where
  /-- The site, in capitals. -/
  radarId : String
  site : Site
  /-- The grids of positions have been computed. -/
  initialized : Bool
  /-- The volumes. -/
  level2Cache : Cache
  /-- The products by their code in capitals. -/
  level3Caches : Keyed String Cache
  /-- The machine that asks for volumes. -/
  level2 : Refresher
  /-- The machines that ask for products, by the code in capitals. -/
  level3 : Keyed String Refresher
  /-- The products that the source offers, as last asked for. -/
  categories : CategoryMap
  /-- The products that the source offers have been asked for. -/
  productsRequested : Bool
  events : Channel ProductEvent
  /-- Someone holds the manager. -/
  alive : Bool
deriving Inhabited

namespace Manager

def new (settings : Settings) (radarId : String) (site : Site) : Manager where
  radarId := radarId
  site := site
  initialized := false
  level2Cache := .empty
  level3Caches := .empty
  level2 := .new radarId none (.ofSeconds settings.retryIntervalSecs)
  level3 := .empty
  categories := []
  productsRequested := false
  events := .new settings.eventCapacity
  alive := true

def describe (m : Manager) : String :=
  "RadarProductManager \x7b radar_id: " ++ Text.quoted m.radarId ++ ", initialized: " ++
    toString m.initialized ++ ", level2_records: " ++ toString m.level2Cache.size ++ " \x7d"

/-- The length of a range gate in metres. -/
def gateSize (m : Manager) : Nat :=
  m.site.gateSize

/-! ## Positions -/

/-- The number of numbers in the grid of a size; before the grids are computed there are none. -/
def gridLength (m : Manager) (size : Geodesy.RadialSize) : Nat :=
  if m.initialized then size.gridLength else 0

/-- The position of a cell in the grid of a size. -/
def position (m : Manager) (size : Geodesy.RadialSize) (k : Nat) : Option (Float32 × Float32) :=
  if 2 * k + 1 < m.gridLength size then
    some (Geodesy.cell Geodesy.direct m.site.latitude m.site.longitude
      (Float32.ofNat m.gateSize) size k)
  else none

/-! ## Caches -/

def level3Cache (m : Manager) (product : String) : Option Cache :=
  m.level3Caches.get? (Ascii.upper product)

/-- The cache of the volumes, or of a product. -/
def cacheOf (m : Manager) : Option String → Cache
  | none => m.level2Cache
  | some product => (m.level3Cache product).getD .empty

/-- The manager with a cache for a product, if it had none. -/
def ensureCache (m : Manager) (product : String) : Manager :=
  { m with level3Caches := m.level3Caches.ensure (Ascii.upper product) .empty }

/-- Stores a record in the cache of its group and product. -/
def store (m : Manager) (r : Record) : Manager :=
  match r.group, r.product with
  | .level3, some product =>
    { m with
      level3Caches := m.level3Caches.set (Ascii.upper product)
        ((m.cacheOf (some product)).insert r) }
  | _, _ => { m with level2Cache := m.level2Cache.insert r }

/-- The key of the cache to which a record belongs. -/
def cacheKey (r : Record) : Option String :=
  match r.group, r.product with
  | .level3, some product => some product
  | _, _ => none

/-- The record that the cache holds once `r` has been stored. -/
def stored (m : Manager) (r : Record) : Record :=
  (m.cacheOf (cacheKey r)).stored r

/-! ## Reading -/

/-- A volume that had started by a time. -/
def hadStarted (t : Instant) (r : Record) : Bool :=
  match r.file.volume? with
  | some v => v.header.start ≤ t
  | none => false

/-- The last volume, or the one at or before a time if it had started by then. -/
def level2Record (m : Manager) : Option Instant → Option Record
  | none => m.level2Cache.latest
  | some t => (m.level2Cache.atOrBefore t).filter (hadStarted t)

/-- The last record of a product, or the one at or before a time. -/
def level3Record (m : Manager) (product : String) (time : Option Instant) : Option Record := do
  let cache ← m.level3Cache product
  match time with
  | none => cache.latest
  | some t => cache.atOrBefore t

/-- The cut of a moment nearest to an elevation, from the volume at a time. -/
def scan (m : Manager) (moment : Moment) (elevation : Float32) (time : Option Instant) :
    Option (ElevationScan Float32) := do
  let v ← (← m.level2Record time).file.volume?
  v.scan moment elevation time

def message (m : Manager) (product : String) (time : Option Instant) : Option Level3Message := do
  (← m.level3Record product time).file.message?

/-! ## Machines -/

/-- The machine that asks for volumes, or for a product. -/
def machine? (m : Manager) : Option String → Option Refresher
  | none => some m.level2
  | some product => m.level3.get? (Ascii.upper product)

/-- The manager with a machine in the place of another. -/
def setMachine (m : Manager) (product : Option String) (r : Refresher) : Manager :=
  match product with
  | none => { m with level2 := r }
  | some product => { m with level3 := m.level3.set (Ascii.upper product) r }

/-- The manager with a machine for a product, if it had none. -/
def ensureMachine (m : Manager) (retry : Duration) (product : String) : Manager :=
  let key := Ascii.upper product
  { m with level3 := m.level3.ensure key (.new m.radarId (some key) retry) }

/-- The status of the machine that asks for volumes, or for a product. -/
def status (m : Manager) (product : Option String) : RefreshStatus :=
  ((m.machine? product).map Refresher.status).getD .disabled

/-- All machines. -/
def machines (m : Manager) : List Refresher :=
  m.level2 :: m.level3.entries.map Prod.snd

/-- Disables all machines. -/
def disableAll (m : Manager) : Manager :=
  { m with
    level2 := m.level2.disable.1
    level3 := m.level3.mapValues fun _ r => r.disable.1 }

/-- Whether nothing more will ever be told to subscribers. -/
def isClosed (m : Manager) : Bool :=
  !m.alive && m.machines.all fun r => !r.isBusy

end Manager

end RadarFeed
