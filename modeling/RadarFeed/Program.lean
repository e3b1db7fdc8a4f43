import RadarFeed.CommandLine
import RadarFeed.Feed.Move
import RadarFeed.Site.File

/-!
The program: it loads the files of a command line, each with the manager of the site to which it
belongs.

`Program.run` reads files by a function that it is given, so that it runs against the file system
of the machine as well as against a tree of files.
-/

namespace RadarFeed

/-- Where the program finds what no argument names. -/
structure Places where
  dataDir : Path
  /-- A file with further sites, which need not exist. -/
  sites : Path
deriving Inhabited

/-- How the program ends. -/
structure Outcome where
  /-- The exit code: 1 for a bad configuration, 2 for a bad command line. -/
  code : Nat
  /-- The lines of the log that pass its filter. -/
  log : List LogLine
deriving Repr, Inhabited

namespace Program

/-- The name of the program. -/
def name : String := "radar-product-manager"

/-- The version of the program. -/
def version : String := "0.3.0-dev"

/-- The directory with data, below that of all programs. -/
def dataPath : String := name ++ "/data"

/-- The file with further sites, below the directory with the configurations of all programs. -/
def sitesPath : String := name ++ "/radar_sites.json"

abbrev FileReader (m : Type → Type) := Path → m (Except FileError (List UInt8))

/-- The site table with the sites of a file, and a line about them. -/
def withSites (path : Path) (bytes : List UInt8) : Option (SiteTable × List LogLine) := do
  let (table, n) ← SiteTable.builtin.mergeFile bytes
  return (table, [⟨.info, "Loaded " ++ toString n ++ " radar sites from " ++ path.text⟩])

variable {m : Type → Type} [Monad m]

/-- Reads the sites: those of the file that is named, or else of the file at its usual place if
there is one. -/
def readSites (read : FileReader m) (places : Places) (named : Option String) :
    m (Option (SiteTable × List LogLine)) := do
  match named with
  | some path =>
    match ← read ⟨path⟩ with
    | .ok bytes => return withSites ⟨path⟩ bytes
    | .error _ => return none
  | none =>
    match ← read places.sites with
    | .ok bytes => return withSites places.sites bytes
    | .error .isDirectory => return none
    | .error _ => return some (.builtin, [])

/-- Reads the settings from the file that is named, if any. -/
def readSettings (read : FileReader m) (named : Option String) : m (Option Settings) := do
  match named with
  | some path =>
    match ← read ⟨path⟩ with
    | .ok bytes => return Settings.read bytes
    | .error _ => return none
  | none => return some .default

/-- Brings the load of a file to its end. -/
def finishLoad (read : FileReader m) (decoder : Decoder) (f : Feed) (task : Nat) (path : Path) :
    m Feed := do
  let f := f.move (.beginLoad task default)
  let f ← match f.load? task with
    | some ⟨_, _, _, .reading⟩ => do pure (f.move (.contents task (← read path)))
    | _ => pure f
  let f := match f.load? task with
    | some ⟨_, _, _, .decoding bytes⟩ =>
      f.move (.decoded task (decoder.decode bytes) (decoder.remarks bytes))
    | _ => f
  return (f.move (.gridsReady task)).move (.answer task)

/-- The record that a request has been completed with. -/
def resultOf (f : Feed) (request : Nat) : Option Record := do
  match (← f.requests[request]?).slot with
  | .filled r => r
  | _ => none

/-- Loads a file and says what it is. -/
def loadFile (read : FileReader m) (decoder : Decoder) (manager : Nat) (f : Feed) (path : Path) :
    m Feed := do
  let request := f.requests.length
  let task := f.nextTask
  let f := (f.move (.request [])).move (.load manager (.file path) (some request))
  let f ← finishLoad read decoder f task path
  match resultOf f request with
  | some r => return f.say .info (path.text ++ ": " ++ r.text)
  | none => return f.say .warn (path.text ++ ": not a product file")

/-- Loads files, one after the other. -/
def loadFiles (read : FileReader m) (decoder : Decoder) (manager : Nat) (f : Feed) :
    List Path → m Feed
  | [] => return f
  | path :: rest => do
    loadFiles read decoder manager (← loadFile read decoder manager f path) rest

/-- Follows the site of a command line until its files are loaded. -/
def follow (read : FileReader m) (reader : RecordReader) (places : Places) (c : CommandLine)
    (sites : SiteTable) (settings : Settings) : m (List LogLine) := do
  let dataDir := (c.dataDir.map Path.mk).getD places.dataDir
  let f := (Feed.new sites settings).say .info
    (name ++ " " ++ version ++ " reading " ++ dataDir.text)
  let f := f.move (.hold c.radar)
  let manager := f.holders.headD 0
  let f ← loadFiles read (radarDecoder reader sites) manager f (c.files.map Path.mk)
  return (f.move (.release manager)).log

/-- The exit code of a command line that is not run. -/
def usageCode : UsageError → Nat
  | .displayHelp => 0
  | .displayVersion => 0
  | _ => 2

/-- Runs a command line that has been read. -/
def runCommand (read : FileReader m) (reader : RecordReader) (places : Places) (c : CommandLine) :
    m Outcome := do
  let outcome (code : Nat) (log : List LogLine) : Outcome := ⟨code, log.filter c.log.passes⟩
  match ← readSites read places c.sites with
  | none => return outcome 1 []
  | some (sites, log) =>
    match ← readSettings read c.settings with
    | none => return outcome 1 log
    | some settings =>
      return outcome 0 (log ++ (← follow read reader places c sites settings))

/-- Runs the program with arguments. -/
def run (read : FileReader m) (reader : RecordReader) (places : Places) (args : List String) :
    m Outcome := do
  match CommandLine.parse args with
  | .error e => return ⟨usageCode e, []⟩
  | .ok c => runCommand read reader places c

end Program

end RadarFeed
