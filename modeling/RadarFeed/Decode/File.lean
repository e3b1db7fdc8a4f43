import RadarFeed.Decode.Guarded
import RadarFeed.Log

/-!
Decoded files: a volume of Level 2 data or a Level 3 product.

A file is decoded as a volume when it begins like one and as a product otherwise. A decoder may also
break off without an answer; `DecodeOutcome` tells that from an error. `radarDecoder` guards its
accesses and breaks off at one out of range.
-/

namespace RadarFeed

/-- A decoded file. -/
inductive RadarFile where
  | level2 (volume : Volume)
  | level3 (product : Level3Product)
deriving Inhabited

namespace RadarFile

/-- The radar that a file comes from, as the file names it. -/
def radarId : RadarFile → String
  | level2 v => v.header.radarId
  | level3 p => p.radarId

def group : RadarFile → ProductGroup
  | level2 _ => .level2
  | level3 _ => .level3

/-- The code of the product; a volume has none. -/
def productCode : RadarFile → Option String
  | level2 _ => none
  | level3 p => some p.productCode

def time : RadarFile → Instant
  | level2 v => v.header.start
  | level3 p => p.time

def volume? : RadarFile → Option Volume
  | level2 v => some v
  | level3 _ => none

def message? : RadarFile → Option Level3Message
  | level2 _ => none
  | level3 p => some p.message

/-- Decodes a file with a table of sites. -/
def decode (reader : RecordReader) (sites : SiteTable) (data : List UInt8) :
    Except DecodeError RadarFile :=
  if VolumeHeader.signature.isPrefixOf data then (Volume.decode reader data).map level2
  else (Level3Product.decode sites data).map level3

/-- Decodes a file with every access guarded. -/
def guarded (reader : RecordReader) (sites : SiteTable) (data : List UInt8) : Guarded RadarFile :=
  if VolumeHeader.signature.isPrefixOf data then level2 <$> Guarded.volume reader data
  else level3 <$> Guarded.product sites data

end RadarFile

/-- How the work of a decoder ends. -/
inductive DecodeOutcome where
  | file (file : RadarFile)
  | error (e : DecodeError)
  /-- The decoder broke off. -/
  | broken
deriving Inhabited

/-- The outcome that a result is. -/
def DecodeOutcome.ofExcept : Except DecodeError RadarFile → DecodeOutcome
  | .ok f => .file f
  | .error e => .error e

/-- The outcome of a guarded computation. -/
def DecodeOutcome.ofGuarded (x : Guarded RadarFile) : DecodeOutcome :=
  match x.run with
  | some result => .ofExcept result
  | none => .broken

/-- A decoder of files. -/
structure Decoder where
  decode : List UInt8 → DecodeOutcome
  /-- What the decoder tells the log about a file. -/
  remarks : List UInt8 → List LogLine

namespace RadarFile

/-- The remark on a product that an office has issued for another radar. -/
def originRemark (sites : SiteTable) (data : List UInt8) : List LogLine :=
  match Level3.Origin.read data with
  | .ok (origin, _) => (origin.remark? sites).toList.map fun text => ⟨.trace, text⟩
  | .error _ => []

def volumeRemark (v : Volume) : LogLine :=
  ⟨.debug, s!"{v.header.radarId}: decoded {v.cutCount} cuts of volume {v.header.start.longText}"⟩

/-- The remarks on a file. -/
def remarks (reader : RecordReader) (sites : SiteTable) (data : List UInt8) : List LogLine :=
  if VolumeHeader.signature.isPrefixOf data then
    match Volume.decode reader data with
    | .ok v => [volumeRemark v]
    | .error _ => []
  else originRemark sites data

end RadarFile

/-- The decoder of the files that radars send. -/
def radarDecoder (reader : RecordReader) (sites : SiteTable) : Decoder where
  decode data := .ofGuarded (RadarFile.guarded reader sites data)
  remarks := RadarFile.remarks reader sites

end RadarFeed
