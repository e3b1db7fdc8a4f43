import RadarFeed.Level3.Heading
import RadarFeed.Level3.Message
import RadarFeed.Site.Table

/-!
Level 3 products.

`Level3Product.decode` reads a file: the lines of text, then the message. The radar is the site
whose id ends in the last three letters of the identifier; of several such sites, products that
begin with `T` belong to a terminal radar and all others to a site of another kind. Without such a
site the first letter of the office completes the three letters, and without three letters the
radar is the office.
-/

namespace RadarFeed

namespace Level3

/-- What the lines of text say. -/
structure Origin where
  heading : String
  /-- The office that issued the product. -/
  office : String
  productCode : String
  /-- What follows the code in the identifier. -/
  suffix : String
deriving DecidableEq, Repr

namespace Origin

/-- Reads the lines of text, and gives what follows them. -/
def read (data : List UInt8) : Except DecodeError (Origin × List UInt8) :=
  match nextLine (skipFraming data) with
  | none => .error (.unknownSignature (data.take 9))
  | some (line, rest) => do
    let (heading, office) ← readHeading line
    match nextLine rest with
    | none => .error (.tooShort (data.length + lineEnd.length) data.length)
    | some (line, rest) => do
      let (productCode, suffix) ← readIdentifier line
      return (⟨heading, office, productCode, suffix⟩, rest)

/-- A product of a terminal radar, by its code. -/
def isTerminal (o : Origin) : Bool :=
  o.productCode.toList.head? = some 'T'

/-- The site, among those with the suffix, to which the product belongs. -/
def siteAmong (o : Origin) (candidates : List Site) : Option Site :=
  (candidates.find? fun s => s.isTerminal = o.isTerminal).or candidates.head?

/-- The radar of the product. -/
def radarId (sites : SiteTable) (o : Origin) : String :=
  if o.suffix.length = 3 then
    match o.siteAmong (sites.withSuffix o.suffix) with
    | some site => Ascii.upper site.id
    | none => String.ofList (o.office.toList.take 1) ++ o.suffix
  else o.office

/-- A remark on a product that an office has issued for another radar. -/
def remark? (sites : SiteTable) (o : Origin) : Option String :=
  let radarId := o.radarId sites
  if radarId = o.office then none
  else some (radarId ++ ": " ++ o.productCode ++ o.suffix ++ " issued by " ++ o.office)

end Origin

end Level3

structure Level3Product where
  radarId : String
  productCode : String
  heading : String
  /-- The time of the volume scan, if the product gives it, else that of the message. -/
  time : Instant
  message : Level3Message
deriving DecidableEq, Repr, Inhabited

/-- Decodes a file. -/
def Level3Product.decode (sites : SiteTable) (data : List UInt8) :
    Except DecodeError Level3Product := do
  let (origin, rest) ← Level3.Origin.read data
  let message ← Level3Message.read rest
  return ⟨origin.radarId sites, origin.productCode, origin.heading, message.volumeTime, message⟩

end RadarFeed
