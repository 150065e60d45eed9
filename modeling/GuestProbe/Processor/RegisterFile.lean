import GuestProbe.Processor.Flags
import GuestProbe.Processor.Register
import GuestProbe.Text.Numeral

/-! # The register file

Reading a register gives the bits of its slice; writing one replaces these bits by the low bits of
the written word and leaves the rest of the cell alone. Writes to the flags register keep the form
that `flagsWord` gives them.
-/

namespace GuestProbe

/-- The contents of all cells. -/
structure RegisterFile where
  cells : Cell → UInt32

namespace RegisterFile

/-- A register file that is zero but for the instruction pointer, the stack pointer and the reserved
flag. -/
def initial (eip esp : UInt32) : RegisterFile where
  cells
    | .eip => eip
    | .esp => esp
    | .eflags => flagsWord 0
    | _ => 0

/-- Replaces the contents of one cell. -/
def setCell (registers : RegisterFile) (cell : Cell) (word : UInt32) : RegisterFile where
  cells other := if other = cell then word else registers.cells other

/-- The value of a register, extended with zeros to a word. -/
def read (registers : RegisterFile) (register : Register) : UInt32 :=
  (registers.cells register.cell >>> register.lowBit) &&& register.width.mask

/-- The contents of a register's cell after a write to the register. -/
def merge (register : Register) (contents value : UInt32) : UInt32 :=
  (contents &&& ~~~register.mask) ||| ((value <<< register.lowBit) &&& register.mask)

/-- Writes the low bits of a word to a register. -/
def write (registers : RegisterFile) (register : Register) (value : UInt32) : RegisterFile :=
  let merged := merge register (registers.cells register.cell) value
  registers.setCell register.cell (if register = .eflags then flagsWord merged else merged)

/-- Reads a register by its name. -/
def readNamed? (registers : RegisterFile) (name : String) : Option UInt32 :=
  (Register.ofName? name).map registers.read

/-- Writes a register given by its name. -/
def writeNamed? (registers : RegisterFile) (name : String) (value : UInt32) :
    Option RegisterFile :=
  (Register.ofName? name).map (registers.write · value)

/-- The registers that fill their cells, with their values. -/
def words (registers : RegisterFile) : List (Register × UInt32) :=
  (Register.all.filter (·.width == .bits32)).map fun register =>
    (register, registers.read register)

/-- A line with a register's name and its value in hexadecimal and decimal form. -/
def dumpLine (register : Register) (value : UInt32) : String :=
  String.ofList (register.name.toList.rightpad 8 ' ') ++ Text.wideHexText value ++ "  " ++
    Text.decimalText value.toNat ++ "\n"

/-- The lines of all registers that fill their cells. -/
def dump (registers : RegisterFile) : String :=
  String.join (registers.words.map fun (register, value) => dumpLine register value)

end RegisterFile

end GuestProbe
