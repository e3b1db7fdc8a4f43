import RadarFeed.Text.Digits
import RadarFeed.Time.RadarDay

/-!
Why a file cannot be decoded.
-/

namespace RadarFeed

/-- A field of a file that may be invalid. -/
inductive FileField where
  | version
  | extension
  | siteId
  | day
  | time
  | heading
  | identifier
deriving DecidableEq, Repr

/-- A field as users read it. -/
def FileField.name : FileField → String
  | version => "version"
  | extension => "extension"
  | siteId => "ICAO"
  | day => "julian date"
  | time => "timestamp"
  | heading => "WMO heading"
  | identifier => "AWIPS identifier"

/-- Why a file cannot be decoded. -/
inductive DecodeError where
  /-- The file ends too early. -/
  | tooShort (expected actual : Nat)
  /-- The file does not begin as a file of a known kind. -/
  | unknownSignature (start : List UInt8)
  /-- A field does not have one of its values. -/
  | invalidField (field : FileField) (value : String)
  /-- A field is not text. -/
  | invalidText (field : FileField)
  /-- The records of a volume cannot be read, or hold no data. -/
  | volume (cause : String)
deriving DecidableEq, Repr

namespace DecodeError

/-- Bytes in brackets, in base sixteen. -/
def byteList (bytes : List UInt8) : String :=
  "[" ++ ", ".intercalate (bytes.map fun b => String.ofList (Text.hexByte true b)) ++ "]"

/-- The error as users read it. -/
def message : DecodeError → String
  | tooShort expected actual =>
    s!"Data too short: expected at least {expected} bytes, got {actual}"
  | unknownSignature start => "Unrecognized file signature: " ++ byteList start
  | invalidField field value => s!"Invalid {field.name}: {value}"
  | invalidText field => s!"Invalid string encoding in {field.name}"
  | volume cause => s!"Cannot decode volume: {cause}"

/-- The error of a day and time that are none. -/
def ofRadarDay : RadarDayError → DecodeError
  | .dayZero => .invalidField .day "0"
  | .outOfRange seconds => .invalidField .time (toString seconds)

end DecodeError

end RadarFeed
