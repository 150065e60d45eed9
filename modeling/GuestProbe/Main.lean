import GuestProbe.CommandLine.Session

/-! # The command line program

The program reads the files that its options name and, unless expressions are given, its standard
input, and prints what the session leaves behind, with a line for each warning. Reports are coloured
if the environment names a terminal that shows colours and does not ask to go without them.
-/

namespace GuestProbe

open CommandLine

/-- Reads a file, or says why it cannot be read. -/
def readFile (path : String) : IO (Except String (List UInt8)) := do
  try
    let bytes ← IO.FS.readBinFile path
    pure (.ok bytes.toList)
  catch
    | .noFileOrDirectory .. => pure (.error "No such file or directory (os error 2)")
    | error => pure (.error (toString error))

/-- Reads the files with the given paths. -/
def readFiles (paths : List String) : IO FileReader := do
  let contents ← paths.mapM fun path => do pure (path, ← readFile path)
  pure fun path => (contents.lookup path).getD (.error "No such file or directory (os error 2)")

/-- The style that the environment asks for. -/
def environmentStyle : IO ReportStyle := do
  let terminal ← IO.getEnv "TERM"
  let withoutColor ← IO.getEnv "NO_COLOR"
  pure (if terminal.any (· != "dumb") && withoutColor.isNone then .colored else .plain)

/-- How the program is called. -/
def usageText : String :=
  "USAGE:\n    sdb [FLAGS] [OPTIONS] [--] [expressions]...\n"

/-- What the program says about itself. -/
def programInformation : Information → String
  | .version => "sdb 0.1.0\n"
  | .help =>
      "sdb 0.1.0\nEvaluate debugger expressions against an i386 machine image.\n\n" ++ usageText ++
        "\nFLAGS:\n" ++ String.join (Switch.all.map fun switch => "    " ++ switch.usage ++ "\n") ++
        "\nOPTIONS:\n" ++
          String.join (OptionName.all.map fun option => "    " ++ option.usage ++ "\n")

/-- What the program adds to a complaint about its arguments. -/
def programUsage : ArgumentError → String
  | .invalidValue .. => ""
  | _ => "\n" ++ usageText ++ "\nFor more information try --help\n"

/-- The logger of the program: a line for each warning. -/
def programLogger : Logger :=
  .ofWarnings fun record => "[" ++ record.level.name ++ "] " ++ record.message ++ "\n"

/-- Runs a session with files and standard input. -/
def runProgram (arguments : List String) : IO Outcome := do
  let (paths, readsInput) := match Options.parse arguments with
    | .error _ => ([], false)
    | .ok options =>
        (options.image.toList ++ options.listing.toList, options.expressions.isEmpty)
  let files ← readFiles paths
  let input ← if readsInput then (← IO.getStdin).readBinToEnd else pure .empty
  let transcript := session arguments ⟨files, none, programInformation, programUsage⟩ input.toList
    (← environmentStyle)
  pure (transcript.printed programLogger)

end GuestProbe

def main (arguments : List String) : IO UInt32 := do
  let outcome ← GuestProbe.runProgram arguments
  (← IO.getStdout).putStr outcome.output
  (← IO.getStderr).putStr outcome.errors
  pure (UInt32.ofNat outcome.status)
