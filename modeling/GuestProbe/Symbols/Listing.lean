import GuestProbe.Log
import GuestProbe.Symbols.Table
import GuestProbe.Text.Numeral
import GuestProbe.Text.Utf8
import GuestProbe.Text.Whitespace

/-! # Symbol listings

A listing has a symbol on each line: an address in hexadecimal digits, a type of one byte and a
name. A line without an address lists an undefined symbol and is skipped, and so is a blank line.
The lines are added to a table in order, up to the first line of another form.
-/

namespace GuestProbe

open Text

/-- Why a line of a listing is refused. Lines are counted from 1. -/
inductive ListingError where
  /-- The line does not have the parts of a symbol's line. -/
  | malformed (line : Nat)
  /-- The address is not a hexadecimal number of 32 bits. -/
  | badAddress (line : Nat) (text : String)
deriving DecidableEq, Repr

namespace ListingError

def line : ListingError → Nat
  | .malformed line => line
  | .badAddress line _ => line

def message : ListingError → String
  | .malformed line => "line " ++ decimalText line ++ ": expected `<address> <type> <name>`"
  | .badAddress line text =>
      "line " ++ decimalText line ++ ": invalid symbol address '" ++ text ++ "'"

end ListingError

/-- The symbol that a line of a listing defines, if it defines one. -/
def listedSymbol (number : Nat) (line : List Char) :
    Except ListingError (Option (String × UInt32)) :=
  match words line with
  | [] => .ok none
  | [type, _] => if byteLength type = 1 then .ok none else .error (.malformed number)
  | [address, type, name] =>
      if byteLength type = 1 then
        match readWord 16 address with
        | .ok word => .ok (some (String.ofList name, word))
        | .error _ => .error (.badAddress number (String.ofList address))
      else .error (.malformed number)
  | _ => .error (.malformed number)

namespace SymbolTable

/-- Adds the symbols of the lines from the given number on, after some have been added. The result
is the table up to the first refused line, with the number of symbols or the error. -/
def addLines (symbols : SymbolTable) (count number : Nat) :
    List (List Char) → SymbolTable × Except ListingError Nat
  | [] => (symbols, .ok count)
  | line :: rest =>
      match listedSymbol number line with
      | .error error => (symbols, .error error)
      | .ok none => symbols.addLines count (number + 1) rest
      | .ok (some (name, word)) =>
          (symbols.insert name word).addLines (count + 1) (number + 1) rest

/-- Adds the symbols of a listing. -/
def addListing (symbols : SymbolTable) (listing : List Char) :
    SymbolTable × Except ListingError Nat :=
  symbols.addLines 0 1 (lines listing)

/-- The table of a listing. -/
def ofListing (listing : List Char) : Except ListingError SymbolTable :=
  let (symbols, result) := empty.addListing listing
  result.map fun _ => symbols

end SymbolTable

/-- The log of adding a listing with the given result. -/
def listingLog (result : Except ListingError Nat) : List LogRecord :=
  match result with
  | .ok count => [⟨.debug, "read " ++ decimalText count ++ " symbols from nm listing"⟩]
  | .error _ => []

end GuestProbe
