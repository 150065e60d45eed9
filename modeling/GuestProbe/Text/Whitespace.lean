/-! # Whitespace, words and lines

Whitespace is the set of characters with the Unicode property `White_Space`. A word is a maximal
run of other characters. A line ends at a line feed; the last line may lack one.
-/

namespace GuestProbe.Text

/-- The characters with the property `White_Space`, as inclusive ranges of code points. -/
def whitespaceRanges : List (Nat × Nat) :=
  [(0x09, 0x0D), (0x20, 0x20), (0x85, 0x85), (0xA0, 0xA0), (0x1680, 0x1680), (0x2000, 0x200A),
    (0x2028, 0x2029), (0x202F, 0x202F), (0x205F, 0x205F), (0x3000, 0x3000)]

def isWhitespace (character : Char) : Bool :=
  whitespaceRanges.any fun (first, last) => first ≤ character.toNat && character.toNat ≤ last

/-- The maximal runs of characters that are not whitespace, in order. -/
def words (text : List Char) : List (List Char) :=
  (text.splitOnP isWhitespace).filter fun word => !word.isEmpty

/-- Removes whitespace from both ends of a text. -/
def trim (text : List Char) : List Char :=
  ((text.dropWhile isWhitespace).reverse.dropWhile isWhitespace).reverse

/-- The pieces that a separator ends, and the piece after the last separator unless it is empty. -/
def terminated {Symbol : Type} [BEq Symbol] (separator : Symbol) (symbols : List Symbol) :
    List (List Symbol) :=
  let pieces := symbols.splitOn separator
  match pieces.getLast? with
  | some [] => pieces.dropLast
  | _ => pieces

/-- The lines of a text, without their line feeds. -/
def lines (text : List Char) : List (List Char) :=
  terminated '\n' text

/-- The lines of a byte string, without their line feeds. -/
def byteLines (bytes : List UInt8) : List (List UInt8) :=
  terminated 0x0A bytes

end GuestProbe.Text
