import RadarFeed.Log
import RadarFeed.Text.Utf8

/-!
The command line.

`CommandLine.parse` reads arguments one at a time. An option takes its value from behind an equals
sign, from the rest of a group of short options, or from the next argument, unless that looks like
an option itself. What is complete is stored only when the next option or file begins, so that an
unknown option is reported before a bad value in front of it, and a bad value before the request
for help behind it. Behind two dashes everything is a file.
-/

namespace RadarFeed

/-- What a command line asks for. -/
structure CommandLine where
  radar : String
  dataDir : Option String
  products : List String
  sites : Option String
  settings : Option String
  /-- Go on polling for new data. -/
  refresh : Bool
  files : List String
  log : LogFilter
deriving DecidableEq, Repr, Inhabited

/-- Why a command line is not run. -/
inductive UsageError where
  | unknownArgument
  | invalidValue
  | argumentConflict
  | tooManyValues
  /-- Help is asked for. -/
  | displayHelp
  /-- The version is asked for. -/
  | displayVersion
deriving DecidableEq, Repr

def UsageError.name : UsageError → String
  | unknownArgument => "UnknownArgument"
  | invalidValue => "InvalidValue"
  | argumentConflict => "ArgumentConflict"
  | tooManyValues => "TooManyValues"
  | displayHelp => "DisplayHelp"
  | displayVersion => "DisplayVersion"

namespace CommandLine

/-- An option without a value. -/
inductive Switch where
  | refresh
  | verbose
  | quiet
  | help
  | version
deriving DecidableEq, Repr

/-- An option with a value. -/
inductive Setting where
  | radar
  | dataDir
  | product
  | sites
  | settings
deriving DecidableEq, Repr

/-- An option. -/
inductive Key where
  | switch (s : Switch)
  | setting (s : Setting)
deriving DecidableEq, Repr

def Key.ofLetter? : Char → Option Key
  | 'r' => some (.setting .radar)
  | 'd' => some (.setting .dataDir)
  | 'p' => some (.setting .product)
  | 'v' => some (.switch .verbose)
  | 'q' => some (.switch .quiet)
  | 'h' => some (.switch .help)
  | 'V' => some (.switch .version)
  | _ => none

def Key.ofName? : String → Option Key
  | "radar" => some (.setting .radar)
  | "data-dir" => some (.setting .dataDir)
  | "product" => some (.setting .product)
  | "sites" => some (.setting .sites)
  | "settings" => some (.setting .settings)
  | "refresh" => some (.switch .refresh)
  | "verbose" => some (.switch .verbose)
  | "quiet" => some (.switch .quiet)
  | "help" => some (.switch .help)
  | "version" => some (.switch .version)
  | _ => none

/-- What has been read and not yet stored. -/
inductive Pending where
  | nothing
  /-- An option with its value, once that has been read. -/
  | setting (s : Setting) (value : Option String)
  | files (paths : List String)
deriving DecidableEq, Repr

/-- The arguments that have been read. -/
structure Arguments where
  radar : Option String
  dataDir : Option String
  products : List String
  sites : Option String
  settings : Option String
  refresh : Bool
  /-- How often more lines of the log are wanted. -/
  verbose : Nat
  /-- How often fewer lines of the log are wanted. -/
  quiet : Nat
  files : List String
  pending : Pending
  /-- Two dashes have been read. -/
  onlyFiles : Bool
deriving DecidableEq, Repr

def Arguments.none : Arguments :=
  ⟨.none, .none, [], .none, .none, false, 0, 0, [], .nothing, false⟩

/-- A path has at least one character. -/
def checkPath (path : String) : Except UsageError String :=
  if path = "" then .error .invalidValue else .ok path

/-- The value of an option that must not have one yet. -/
def once (old : Option String) (value : Except UsageError String) :
    Except UsageError (Option String) :=
  if old.isSome then .error .argumentConflict else value.map some

namespace Arguments

/-- Stores the value of an option. -/
def store (a : Arguments) (value : String) : Setting → Except UsageError Arguments
  | .radar => return { a with radar := ← once a.radar (.ok value) }
  | .dataDir => return { a with dataDir := ← once a.dataDir (checkPath value) }
  | .product => return { a with products := a.products ++ [value] }
  | .sites => return { a with sites := ← once a.sites (checkPath value) }
  | .settings => return { a with settings := ← once a.settings (checkPath value) }

/-- Stores what is pending. -/
def resolve (a : Arguments) : Except UsageError Arguments :=
  let rest := { a with pending := .nothing }
  match a.pending with
  | .nothing => .ok rest
  | .setting _ .none => .error .invalidValue
  | .setting s (some value) => rest.store value s
  | .files paths => do
    let paths ← paths.mapM checkPath
    return { rest with files := a.files ++ paths }

/-- Takes an option without a value. -/
def takeSwitch (a : Arguments) (s : Switch) : Except UsageError Arguments := do
  let a ← a.resolve
  match s with
  | .refresh => if a.refresh then throw .argumentConflict else return { a with refresh := true }
  | .verbose => return { a with verbose := a.verbose + 1 }
  | .quiet => return { a with quiet := a.quiet + 1 }
  | .help => throw .displayHelp
  | .version => throw .displayVersion

/-- Takes an option with the value that is attached to it, if there is one. -/
def takeSetting (a : Arguments) (s : Setting) (attached : Option String) :
    Except UsageError Arguments := do
  let a ← a.resolve
  match attached with
  | some value => a.store value s
  | .none => return { a with pending := .setting s .none }

/-- The two parts of text around its first equals sign. -/
def splitEquals : List Char → List Char × Option (List Char)
  | [] => ([], .none)
  | '=' :: s => ([], some s)
  | c :: s => let (name, value) := splitEquals s; (c :: name, value)

/-- Takes an option that is written with its name. -/
def takeLong (a : Arguments) (s : List Char) : Except UsageError Arguments :=
  let (name, value) := splitEquals s
  match Key.ofName? (String.ofList name), value with
  | some (.setting s), value => a.takeSetting s (value.map String.ofList)
  | some (.switch s), .none => a.takeSwitch s
  | some (.switch _), some _ => .error .tooManyValues
  | .none, _ => .error .unknownArgument

/-- The value that the rest of a group of short options gives. -/
def attachedValue : List Char → Option String
  | [] => .none
  | '=' :: s => some (String.ofList s)
  | s => some (String.ofList s)

/-- Takes a group of options that are written with their letters. -/
def takeShort (a : Arguments) : List Char → Except UsageError Arguments
  | [] => .ok a
  | c :: s =>
    match Key.ofLetter? c with
    | some (.switch w) => do takeShort (← a.takeSwitch w) s
    | some (.setting w) => a.takeSetting w (attachedValue s)
    | .none => .error .unknownArgument

/-- Takes an argument that is no option: a file, or the value that an option waits for. -/
def takeValue (a : Arguments) (value : String) : Except UsageError Arguments :=
  match a.pending, a.onlyFiles with
  | .setting s .none, false => .ok { a with pending := .setting s (some value) }
  | .files paths, _ => .ok { a with pending := .files (paths ++ [value]) }
  | _, _ => do return { ← a.resolve with pending := .files [value] }

def take (a : Arguments) (arg : String) : Except UsageError Arguments :=
  if a.onlyFiles then a.takeValue arg
  else
    match arg.toList with
    | ['-', '-'] => .ok { a with onlyFiles := true }
    | '-' :: '-' :: s => a.takeLong s
    | '-' :: c :: s => a.takeShort (c :: s)
    | _ => a.takeValue arg

/-- The last line of the log that passes, from how often more and fewer lines are wanted. -/
def filter (a : Arguments) : LogFilter :=
  LogLevel.ofRank? (LogLevel.info.rank + min a.verbose 255 - min a.quiet 255)

/-- The site that is followed unless another one is named. -/
def defaultRadar : String := "KLSX"

/-- Completes a command line. -/
def finish (a : Arguments) : Except UsageError CommandLine := do
  let a ← a.resolve
  if a.verbose ≠ 0 ∧ a.quiet ≠ 0 then
    throw .argumentConflict
  return ⟨a.radar.getD defaultRadar, a.dataDir, a.products, a.sites, a.settings, a.refresh, a.files,
    a.filter⟩

end Arguments

/-- Reads the arguments of a command line, without the name of the program. -/
def parse (args : List String) : Except UsageError CommandLine := do
  (← args.foldlM Arguments.take Arguments.none).finish

end CommandLine

end RadarFeed
