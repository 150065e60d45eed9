import GuestProbe.CommandLine.Arguments
import GuestProbe.Text.Numeral

/-! # Options of a session

The values of the options are read after all arguments have been sorted. A number is hexadecimal
after `0x` and decimal otherwise; an assignment is a name, an equals sign and a number.
-/

namespace GuestProbe.CommandLine

open Text

/-- How results are printed. -/
inductive ValueFormat where
  | hex
  | decimal
  | both
deriving DecidableEq, Repr

namespace ValueFormat

/-- The format with the given name. -/
def ofName? : String → Option ValueFormat
  | "hex" => some .hex
  | "dec" => some .decimal
  | "both" => some .both
  | _ => none

/-- The text of a result. -/
def text (format : ValueFormat) (value : UInt32) : String :=
  match format with
  | .hex => hexText value
  | .decimal => decimalText value.toNat
  | .both => wideHexText value ++ "  " ++ decimalText value.toNat

end ValueFormat

/-- A number that may be hexadecimal. -/
def readNumber (text : List Char) : Except NumeralError UInt32 :=
  match text with
  | '0' :: 'x' :: digits => readWord 16 digits
  | digits => readWord 10 digits

/-- A name and a number around the first equals sign of a text. -/
def readAssignment (text : String) : Except String (String × UInt32) :=
  match text.toList.span (· != '=') with
  | (_, []) => .error ("expected `name=value`, got '" ++ text ++ "'")
  | (name, _ :: number) =>
      match readNumber number with
      | .ok value => .ok (String.ofList name, value)
      | .error error => .error ("invalid value in '" ++ text ++ "': " ++ error.message)

/-- What a session is asked to do. -/
structure Options where
  /-- The file of the memory image. -/
  image : Option String
  /-- The address of the image and of the next instruction. -/
  base : UInt32
  /-- The registers to set, in order. -/
  registers : List (String × UInt32)
  /-- The symbols to define, in order. -/
  symbols : List (String × UInt32)
  /-- The file of the symbol listing. -/
  listing : Option String
  /-- Unknown symbols have a value instead of being errors. -/
  lenient : Bool
  format : ValueFormat
  /-- All registers are printed before any result. -/
  showRegisters : Bool
  /-- The expressions to evaluate; without any, they come from the standard input. -/
  expressions : List String

/-- The values given for an option, in order. -/
def valuesOf (option : OptionName) (arguments : List Argument) : List String :=
  arguments.filterMap fun
    | .option name (some text) => if name = option then some text else none
    | _ => none

/-- The number of arguments of a sort. -/
def countOf (sort : ArgumentSort) (arguments : List Argument) : Nat :=
  arguments.countP (·.sort = sort)

/-- Reads all values given for an option. An option that is given has a value, and only one unless
it can be repeated. -/
def readValues {Value : Type} (option : OptionName) (read : String → Except String Value)
    (arguments : List Argument) : Except ArgumentError (List Value) :=
  let texts := valuesOf option arguments
  let count := countOf (.option option) arguments
  if texts.isEmpty && count != 0 then .error (.missingValue option)
  else
    match texts.mapM read with
    | .error reason => .error (.invalidValue option reason)
    | .ok values =>
        if 1 < count && !option.isRepeatable then .error (.repeated option.usage) else .ok values

/-- Reads whether a switch is given, which may be once. -/
def readSwitch (switch : Switch) (arguments : List Argument) : Except ArgumentError Bool :=
  let count := countOf (.switch switch) arguments
  if 1 < count then .error (.repeated switch.usage) else .ok (count != 0)

namespace Options

/-- The base address when none is given. -/
def defaultBase : UInt32 := 0x100000

/-- Reads the options and expressions among the arguments. -/
def ofArguments (arguments : List Argument) : Except ArgumentError Options := do
  let bases ← readValues .base (fun text => (readNumber text.toList).mapError NumeralError.message)
    arguments
  let registers ← readValues .register readAssignment arguments
  let symbols ← readValues .symbol readAssignment arguments
  let formats ← readValues .format
    (fun text => (ValueFormat.ofName? text).elim (.error ("invalid format: " ++ text)) .ok) arguments
  let images ← readValues .image .ok arguments
  let listings ← readValues .listing .ok arguments
  let lenient ← readSwitch .lenientSymbols arguments
  let showRegisters ← readSwitch .infoRegisters arguments
  pure {
    image := images.head?
    base := bases.head?.getD defaultBase
    registers
    symbols
    listing := listings.head?
    lenient
    format := formats.head?.getD .both
    showRegisters
    expressions := arguments.filterMap fun
      | .expression text => some text
      | _ => none }

/-- Reads a command line. -/
def parse (commandLine : List String) : Except Dismissal Options := do
  let arguments ← readArguments commandLine
  (ofArguments arguments).mapError .refuses

end Options

end GuestProbe.CommandLine
