import GuestProbe.Log

/-! # What sessions write

A session leaves a status behind, an output and an error output. What it writes to the error output
are texts and records for a logger, which writes a line for some of the records and nothing for the
others. A transcript keeps the records, so that it does not depend on the logger.
-/

namespace GuestProbe.CommandLine

/-- What a session leaves behind. -/
structure Outcome where
  status : Nat
  output : String
  errors : String
deriving DecidableEq, Repr

/-- What a logger writes for a record: nothing, if the record does not pass its filter. -/
abbrev Logger := LogRecord → String

namespace Logger

/-- Writes nothing. -/
def silent : Logger :=
  fun _ => ""

/-- Writes a line for each warning and nothing for records of more detailed levels. -/
def ofWarnings (line : LogRecord → String) : Logger :=
  fun record => if record.level = .warn then line record else ""

end Logger

/-- An entry of the error output. -/
inductive ErrorEntry where
  | text (text : String)
  /-- The record is left to the logger. -/
  | record (record : LogRecord)
deriving DecidableEq, Repr

namespace ErrorEntry

/-- The text of an entry that does not belong to the logger. -/
def text? : ErrorEntry → Option String
  | .text written => some written
  | .record _ => none

/-- What is written for an entry. -/
def written (logger : Logger) : ErrorEntry → String
  | .text written => written
  | .record logged => logger logged

end ErrorEntry

/-- What is written for entries, one after the other. -/
def printEntries (logger : Logger) (entries : List ErrorEntry) : String :=
  String.join (entries.map (ErrorEntry.written logger))

/-- What a session leaves behind, with the records that it logs. -/
structure Transcript where
  status : Nat
  output : String
  errors : List ErrorEntry
deriving DecidableEq, Repr

namespace Transcript

/-- What two parts of a session leave behind together. -/
def append (first second : Transcript) : Transcript :=
  ⟨max first.status second.status, first.output ++ second.output, first.errors ++ second.errors⟩

/-- The texts in the error output. -/
def texts (transcript : Transcript) : List String :=
  transcript.errors.filterMap ErrorEntry.text?

/-- What is left behind with the given logger. -/
def printed (transcript : Transcript) (logger : Logger) : Outcome :=
  ⟨transcript.status, transcript.output, printEntries logger transcript.errors⟩

end Transcript

end GuestProbe.CommandLine
