/-!
Lines of the log.

A line has a level; a filter passes the lines up to a level of its own, or none. Levels are ordered
from the most to the least severe.
-/

namespace RadarFeed

/-- How severe a line of the log is. -/
inductive LogLevel where
  | error
  | warn
  | info
  | debug
  | trace
deriving DecidableEq, Repr, Inhabited

namespace LogLevel

/-- The place of a level in the order, from 1 on. -/
def rank : LogLevel → Nat
  | error => 1
  | warn => 2
  | info => 3
  | debug => 4
  | trace => 5

/-- The level as it is written. -/
def name : LogLevel → String
  | error => "ERROR"
  | warn => "WARN"
  | info => "INFO"
  | debug => "DEBUG"
  | trace => "TRACE"

/-- The level with a place in the order; places beyond the last belong to it. -/
def ofRank? : Nat → Option LogLevel
  | 0 => none
  | 1 => some error
  | 2 => some warn
  | 3 => some info
  | 4 => some debug
  | _ => some trace

end LogLevel

/-- The last level that passes, if any does. -/
abbrev LogFilter := Option LogLevel

/-- The filter as it is written. -/
def LogFilter.name : LogFilter → String
  | some level => level.name
  | none => "OFF"

structure LogLine where
  level : LogLevel
  text : String
deriving DecidableEq, Repr, Inhabited

/-- Whether a filter passes a line. -/
def LogFilter.passes (filter : LogFilter) (line : LogLine) : Bool :=
  match filter with
  | some level => line.level.rank ≤ level.rank
  | none => false

/-- A line as it is written. -/
def LogLine.render (line : LogLine) : String :=
  line.level.name ++ " " ++ line.text

end RadarFeed
