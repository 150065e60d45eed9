import GuestProbe.CommandLine.Options
import GuestProbe.CommandLine.Transcript
import GuestProbe.Expression.Report
import GuestProbe.Machine

/-! # Sessions

A session sets up a machine, in a fixed order of steps of which the first that fails ends the
session, and then evaluates expressions one after the other against this machine. The expressions
are the arguments or, without any, the lines of the standard input. Results go to the output and
reports of errors to the error output; an expression that fails does not stop the ones after it.

An image is mapped into a memory that covers the address space. Where this much cannot be reserved,
the session goes on with an array, and says so in its log.
-/

namespace GuestProbe.CommandLine

open Text

/-- Reads a file as bytes, or says why it cannot be read. -/
abbrev FileReader := String → Except String (List UInt8)

/-- What a session finds around it. -/
structure Host where
  files : FileReader
  /-- Why the whole address space cannot be reserved, if it cannot. -/
  reservationError? : Option String
  /-- What the argument parser says about the program. -/
  information : Information → String
  /-- What the argument parser adds to a complaint about arguments. -/
  usage : ArgumentError → String

namespace Host

/-- A host that can reserve the address space, and whose argument parser has nothing to add. -/
def ofFiles (files : FileReader) : Host :=
  ⟨files, none, fun _ => "", fun _ => ""⟩

/-- The memory that an image is mapped into. -/
def imageMemory (host : Host) : Memory :=
  if host.reservationError?.isSome then .array #[] else .reserved

/-- The log of reserving the address space. -/
def reservationLog (host : Host) : List LogRecord :=
  match host.reservationError? with
  | none => []
  | some reason =>
      [⟨.warn, "cannot reserve the guest address space (" ++ reason ++ "), using a heap buffer"⟩]

end Host

/-- The complaint about text that is not in UTF-8. -/
def encodingError : String := "stream did not contain valid UTF-8"

/-- The last line of a session that cannot go on. -/
def exitLine (reason : String) : String :=
  "exiting due to error: " ++ reason ++ "\n"

/-- A step of setting up a session. -/
abbrev SetUp := Traced LogRecord String

/-- Sets registers by name, from left to right. -/
def setRegisters (registers : RegisterFile) :
    List (String × UInt32) → Except String RegisterFile
  | [] => .ok registers
  | (name, value) :: rest =>
      match registers.writeNamed? name value with
      | some changed => setRegisters changed rest
      | none => .error ("unknown register '" ++ name ++ "'")

/-- A machine with the image of a session, if it has one. -/
def loadSessionImage (options : Options) (host : Host) (registers : RegisterFile) :
    SetUp Machine :=
  match options.image with
  | none => pure (.initial registers (.array #[]))
  | some path => do
      let bytes ← .ofExcept (host.files path)
      let image := bytes.toArray
      .recordAll (host.reservationLog ++ Machine.imageLog options.base image path)
      .ofExcept (((Machine.initial registers host.imageMemory).loadImage options.base image
        path).mapError MappingError.message)

/-- The symbols of a session's listing, if it has one. -/
def readSessionListing (options : Options) (host : Host) : SetUp SymbolTable :=
  match options.listing with
  | none => pure .empty
  | some path => do
      let bytes ← .ofExcept (host.files path)
      match decode? bytes with
      | none => .fail encodingError
      | some listing =>
          let (symbols, result) := SymbolTable.empty.addListing listing
          .recordAll (listingLog result)
          let count ← .ofExcept (result.mapError ListingError.message)
          .record ⟨.info, "read " ++ decimalText count ++ " symbols from " ++ path⟩
          pure symbols

/-- The log of preparing the rules for pieces of expressions. -/
def rulesRecord : LogRecord :=
  ⟨.debug, "compiling " ++ decimalText Rule.table.length ++ " tokenizer rules"⟩

/-- The machine of a session. -/
def setUp (options : Options) (host : Host) : SetUp Machine := do
  .record rulesRecord
  let registers ← .ofExcept (setRegisters (.initial options.base 0) options.registers)
  let machine ← loadSessionImage options host registers
  let listed ← readSessionListing options host
  pure { machine with
    symbols := listed.insertAll options.symbols
    lenient := options.lenient }

/-- Evaluates one expression. -/
def evaluateOne (machine : Machine) (format : ValueFormat) (style : ReportStyle)
    (expression : String) : Transcript :=
  let logged := (machine.environment.evaluationLog expression).map ErrorEntry.record
  match machine.evaluate expression with
  | .ok value => ⟨0, format.text value ++ "\n", logged⟩
  | .error error => ⟨1, "", logged ++ [.text (error.report style expression)]⟩

/-- Evaluates expressions one after the other. -/
def evaluateAll (machine : Machine) (format : ValueFormat) (style : ReportStyle)
    (expressions : List String) : Transcript :=
  (expressions.map (evaluateOne machine format style)).foldr Transcript.append ⟨0, "", []⟩

/-- The expressions in lines of text, up to the first line that is not in UTF-8, and whether there
is such a line. Blank lines hold no expression. -/
def lineExpressions : List (List UInt8) → List String × Bool
  | [] => ([], false)
  | line :: rest =>
      match decode? line with
      | none => ([], true)
      | some text =>
          let (following, malformed) := lineExpressions rest
          let expression := trim text
          (if expression.isEmpty then following else String.ofList expression :: following,
            malformed)

/-- Evaluates the expressions of the standard input. -/
def evaluateInput (machine : Machine) (format : ValueFormat) (style : ReportStyle)
    (input : List UInt8) : Transcript :=
  let (expressions, malformed) := lineExpressions (byteLines input)
  let transcript := evaluateAll machine format style expressions
  if malformed then transcript.append ⟨1, "", [.text (exitLine encodingError)]⟩ else transcript

/-- The transcript of a session with the given options. -/
def sessionOf (options : Options) (host : Host) (input : List UInt8) (style : ReportStyle) :
    Transcript :=
  let ready := setUp options host
  let logged := ready.events.map ErrorEntry.record
  match ready.outcome with
  | .error reason => ⟨1, "", logged ++ [.text (exitLine reason)]⟩
  | .ok machine =>
      let dump := if options.showRegisters then machine.registers.dump else ""
      let evaluated :=
        if options.expressions.isEmpty then evaluateInput machine options.format style input
        else evaluateAll machine options.format style options.expressions
      Transcript.append ⟨0, dump, logged⟩ evaluated

/-- The transcript of the session that a command line asks for. -/
def session (commandLine : List String) (host : Host) (input : List UInt8) (style : ReportStyle) :
    Transcript :=
  match Options.parse commandLine with
  | .error (.informs request) => ⟨0, host.information request, []⟩
  | .error (.refuses error) => ⟨1, "", [.text (error.message ++ host.usage error)]⟩
  | .ok options => sessionOf options host input style

/-- Runs a session with files, and with a logger that writes nothing. -/
def run (commandLine : List String) (files : FileReader) (input : List UInt8)
    (style : ReportStyle) : Outcome :=
  (session commandLine (.ofFiles files) input style).printed .silent

end GuestProbe.CommandLine
