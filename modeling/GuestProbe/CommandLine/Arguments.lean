/-! # Command line arguments

An argument that starts with two hyphens names a switch or an option. The value of an option is the
text after the first equals sign of the argument or, without one, the next argument, unless this one
starts with a hyphen itself. All other arguments are expressions, and so is everything after an
argument that consists of two hyphens only.

Arguments are read up to one that asks for information about the program or that names nothing.
Whether options have their values, and not more than one, is found out after that.
-/

namespace GuestProbe.CommandLine

/-- An option that takes a value. -/
inductive OptionName where
  | image
  | base
  | register
  | symbol
  | listing
  | format
deriving DecidableEq, Repr

namespace OptionName

def all : List OptionName :=
  [.image, .base, .register, .symbol, .listing, .format]

/-- The name of an option without its hyphens. -/
def flag : OptionName → String
  | .image => "image"
  | .base => "base"
  | .register => "reg"
  | .symbol => "sym"
  | .listing => "symbols"
  | .format => "format"

/-- The option with its value, as it is shown to a person. -/
def usage : OptionName → String
  | .image => "--image <image>"
  | .base => "--base <base>"
  | .register => "--reg <regs>..."
  | .symbol => "--sym <syms>..."
  | .listing => "--symbols <symbols>"
  | .format => "--format <format>"

/-- The option can be given any number of times. -/
def isRepeatable : OptionName → Bool
  | .register | .symbol => true
  | .image | .base | .listing | .format => false

end OptionName

/-- An option without a value. -/
inductive Switch where
  | lenientSymbols
  | infoRegisters
deriving DecidableEq, Repr

namespace Switch

def all : List Switch :=
  [.lenientSymbols, .infoRegisters]

/-- The name of a switch without its hyphens. -/
def flag : Switch → String
  | .lenientSymbols => "lenient-symbols"
  | .infoRegisters => "info-registers"

/-- The switch, as it is shown to a person. -/
def usage (switch : Switch) : String :=
  "--" ++ switch.flag

end Switch

/-- Information about the program that can be asked for. -/
inductive Information where
  | help
  | version
deriving DecidableEq, Repr

namespace Information

/-- The information that the option with this name asks for. -/
def ofFlag? : String → Option Information
  | "help" => some .help
  | "version" => some .version
  | _ => none

/-- The information that the option with this letter, behind one hyphen, asks for. -/
def ofLetter? : Char → Option Information
  | 'h' => some .help
  | 'V' => some .version
  | _ => none

end Information

/-- What an argument, or an option with its value, stands for. -/
inductive Argument where
  /-- An option with its value, unless that is missing. -/
  | option (name : OptionName) (value : Option String)
  | switch (switch : Switch)
  | expression (text : String)
deriving DecidableEq, Repr

/-- What arguments that are read together have in common. -/
inductive ArgumentSort where
  | option (name : OptionName)
  | switch (switch : Switch)
  | expression
deriving DecidableEq, Repr

def Argument.sort : Argument → ArgumentSort
  | .option name _ => .option name
  | .switch flag => .switch flag
  | .expression _ => .expression

/-- Why arguments are refused. -/
inductive ArgumentError where
  /-- An argument looks like an option but names none. -/
  | unknown (argument : String)
  /-- An option has no value. -/
  | missingValue (option : OptionName)
  /-- The value of an option does not have the form it needs. -/
  | invalidValue (option : OptionName) (reason : String)
  /-- An option or a switch, in the form that is shown to a person, is given more than once. -/
  | repeated (usage : String)
deriving DecidableEq, Repr

/-- The complaint about refused arguments. -/
def ArgumentError.message : ArgumentError → String
  | .unknown argument =>
      "error: Found argument '" ++ argument ++
        "' which wasn't expected, or isn't valid in this context\n"
  | .missingValue option =>
      "error: The argument '" ++ option.usage ++ "' requires a value but none was supplied\n"
  | .invalidValue option reason =>
      "error: Invalid value for '" ++ option.usage ++ "': " ++ reason ++ "\n"
  | .repeated usage =>
      "error: The argument '" ++ usage ++
        "' was provided more than once, but cannot be used multiple times\n"

/-- Why arguments do not lead to a session. -/
inductive Dismissal where
  /-- The arguments ask for information about the program. -/
  | informs (request : Information)
  | refuses (error : ArgumentError)
deriving DecidableEq, Repr

/-- A text of at least two characters that starts with a hyphen. -/
def isHyphenated (argument : String) : Bool :=
  match argument.toList with
  | '-' :: _ :: _ => true
  | _ => false

/-- The name in a long option, without its hyphens, and the value that is attached to it. Equals
signs at the start of the value are not part of it. -/
def longOption? (argument : String) : Option (String × Option String) :=
  match argument.toList with
  | '-' :: '-' :: name =>
      let (flag, attached) := (name.dropWhile (· == '-')).span (· != '=')
      some (String.ofList flag,
        if attached.isEmpty then none else some (String.ofList (attached.dropWhile (· == '='))))
  | _ => none

/-- What becomes of an option that belongs to no session. -/
def dismissal (argument : String) : Option Information → Dismissal
  | some request => .informs request
  | none => .refuses (.unknown argument)

/-- What becomes of the letter of an option with one hyphen: no session has such options. -/
def shortOption? (argument : String) : Option Dismissal :=
  match argument.toList with
  | '-' :: letter :: _ => some (dismissal ("-" ++ letter.toString) (Information.ofLetter? letter))
  | _ => none

/-- Reads arguments from left to right. -/
def readArguments : List String → Except Dismissal (List Argument)
  | [] => .ok []
  | argument :: rest =>
      if argument = "--" then .ok (rest.map .expression)
      else
        match longOption? argument with
        | none =>
            match shortOption? argument with
            | some dismissed => .error dismissed
            | none => (readArguments rest).map (.expression argument :: ·)
        | some (flag, attached) =>
            match OptionName.all.find? (·.flag == flag), Switch.all.find? (·.flag == flag) with
            | some option, _ =>
                match attached, rest with
                | some value, rest => (readArguments rest).map (.option option (some value) :: ·)
                | none, value :: others =>
                    -- what starts with a hyphen is an argument of its own
                    if isHyphenated value then
                      (readArguments (value :: others)).map (.option option none :: ·)
                    else (readArguments others).map (.option option (some value) :: ·)
                | none, [] => .ok [.option option none]
            | none, some switch => (readArguments rest).map (.switch switch :: ·)
            | none, none => .error (dismissal ("--" ++ flag) (Information.ofFlag? flag))

end GuestProbe.CommandLine
