import RadarFeed.Main.Body
import RadarFeed.Program

/-!
The program on the file system of the machine.
-/

namespace RadarFeed

/-- Why a file cannot be read, from the error of the system. -/
def fileErrorOf : IO.Error → FileError
  | .inappropriateType _ 21 _ => .isDirectory
  | .inappropriateType _ _ _ => .notDirectory
  | .invalidArgument _ 36 _ => .nameTooLong
  | .invalidArgument _ _ _ => .zeroInName
  | _ => .notFound

def readFile (path : Path) : IO (Except FileError (List UInt8)) := do
  try
    let bytes ← IO.FS.readBinFile path.text
    return .ok bytes.toList
  catch e =>
    return .error (fileErrorOf e)

/-- A directory of the user: the one that a variable names, if its path is absolute, or one below
the home directory. -/
def userDir (variableName fallback : String) : IO Path := do
  let home ← IO.getEnv "HOME"
  let usual := (Path.mk (home.getD "")).join ⟨fallback⟩
  match ← IO.getEnv variableName with
  | some dir => return if (Path.mk dir).isAbsolute then ⟨dir⟩ else usual
  | none => return usual

/-- Where the program finds what no argument names. -/
def userPlaces : IO Places := do
  let data ← userDir "XDG_DATA_HOME" ".local/share"
  let config ← userDir "XDG_CONFIG_HOME" ".config"
  return ⟨data.join ⟨Program.dataPath⟩, config.join ⟨Program.sitesPath⟩⟩

/-- Reads the records of a volume file, which must not be compressed. -/
def plainRecords : RecordReader := fun data =>
  (VolumeBody.withoutMessages (data.drop VolumeHeader.size)).mapError BodyError.message

end RadarFeed

open RadarFeed in
/-- Runs the program, and writes its log to the standard error. -/
def main (args : List String) : IO UInt32 := do
  let outcome ← Program.run readFile plainRecords (← userPlaces) args
  for line in outcome.log do
    IO.eprintln line.render
  return UInt32.ofNat outcome.code
