/-! # Log records

A record is a message at a level. Operations that keep a log return it as a list of records in the
order in which they were made.
-/

namespace GuestProbe

/-- The levels of log messages, the most detailed one first. -/
inductive LogLevel where
  | trace
  | debug
  | info
  | warn
deriving DecidableEq, Repr

def LogLevel.name : LogLevel → String
  | .trace => "TRACE"
  | .debug => "DEBUG"
  | .info => "INFO"
  | .warn => "WARN"

structure LogRecord where
  level : LogLevel
  message : String
deriving DecidableEq, Repr

end GuestProbe
