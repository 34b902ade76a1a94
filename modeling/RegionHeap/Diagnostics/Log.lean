import RegionHeap.Event

/-!
# The log

Lines about arenas all have the same target. Events with sizes are logged at level
`trace` and all other lines at level `debug`; a log keeps the levels up to its own.
-/

namespace RegionHeap

/-- How much the log keeps. -/
inductive LogLevel
  | off
  | info
  | debug
  | trace
  deriving DecidableEq

namespace LogLevel

/-- Whether lines of level `debug` are kept. -/
def keepsDebug : LogLevel → Bool
  | debug | trace => true
  | off | info => false

/-- The detail that can be logged. -/
def detail : LogLevel → Detail
  | trace => .trace
  | debug => .debug
  | off | info => .off

end LogLevel

/-- One line of the log. -/
structure LogLine where
  level : String
  target : String
  text : String
  deriving DecidableEq

namespace LogLine

/-- The target of every line about arenas. -/
def arenaTarget : String := "grain::alloc::region"

/-- A line of level `debug`. -/
def debug (text : String) : LogLine :=
  { level := "DEBUG", target := arenaTarget, text }

/-- The line about an event. -/
def ofEvent (e : Event) : LogLine :=
  if e.sizes.isSome then { level := "TRACE", target := arenaTarget, text := e.text }
  else debug e.text

end LogLine

end RegionHeap
