/-! # Numerals for 32-bit words

`readWord` reads an unsigned numeral in a given radix. It accepts one leading plus sign and any
number of leading zeros, looks at the characters from left to right and stops at the first one that
is not a digit or that takes the number past the largest word; `NumeralError` says which it was.
`decimalText`, `hexText` and `wideHexText` are the written forms of a word.
-/

namespace GuestProbe.Text

/-- Why a text is no numeral for a word. -/
inductive NumeralError where
  | empty
  | invalidDigit
  | tooLarge
deriving DecidableEq, Repr

def NumeralError.message : NumeralError → String
  | .empty => "cannot parse integer from empty string"
  | .invalidDigit => "invalid digit found in string"
  | .tooLarge => "number too large to fit in target type"

/-- The value of a digit in a radix of at most 16; both letter cases count. -/
def digitValue? (radix : Nat) (character : Char) : Option Nat :=
  let value? : Option Nat :=
    if '0' ≤ character ∧ character ≤ '9' then some (character.toNat - '0'.toNat)
    else if 'a' ≤ character ∧ character ≤ 'f' then some (character.toNat - 'a'.toNat + 10)
    else if 'A' ≤ character ∧ character ≤ 'F' then some (character.toNat - 'A'.toNat + 10)
    else none
  value?.filter (· < radix)

/-- Continues a number that fits into a word with further digits. -/
def readDigits (radix : Nat) : Nat → List Char → Except NumeralError Nat
  | number, [] => .ok number
  | number, character :: rest =>
      match digitValue? radix character with
      | none => .error .invalidDigit
      | some value =>
          if number * radix + value < UInt32.size then readDigits radix (number * radix + value) rest
          else .error .tooLarge

theorem readDigits_lt {radix number result : Nat} {digits : List Char} (bound : number < UInt32.size)
    (read : readDigits radix number digits = .ok result) : result < UInt32.size := by
  induction digits generalizing number with
  | nil =>
    simp only [readDigits, Except.ok.injEq] at read
    omega
  | cons character rest ih =>
    simp only [readDigits] at read
    split at read
    · cases read
    · split at read
      · next fits => exact ih fits read
      · cases read

/-- Reads a numeral, which may have one leading plus sign. -/
def readWord (radix : Nat) (numeral : List Char) : Except NumeralError UInt32 :=
  match numeral with
  | [] => .error .empty
  | ['+'] => .error .invalidDigit
  | '+' :: digits => (readDigits radix 0 digits).map UInt32.ofNat
  | digits => (readDigits radix 0 digits).map UInt32.ofNat

/-- The decimal digits of a number, without leading zeros. -/
def decimalText (number : Nat) : String :=
  String.ofList (Nat.toDigits 10 number)

/-- The decimal digits of an integer, after a minus sign if it is negative. -/
def signedText (number : Int) : String :=
  if number < 0 then "-" ++ decimalText number.natAbs else decimalText number.natAbs

/-- The lowercase hexadecimal digits of a word, at least as many as the width. -/
def hexDigits (width : Nat) (word : UInt32) : List Char :=
  (Nat.toDigits 16 word.toNat).leftpad width '0'

/-- The digits of a word after `0x`, without leading zeros. -/
def hexText (word : UInt32) : String :=
  "0x" ++ String.ofList (hexDigits 1 word)

/-- All eight hexadecimal digits of a word after `0x`. -/
def wideHexText (word : UInt32) : String :=
  "0x" ++ String.ofList (hexDigits 8 word)

end GuestProbe.Text
