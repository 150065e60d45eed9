import GuestProbe.Memory.Basic
import GuestProbe.Log
import GuestProbe.Processor.RegisterFile

/-! # Relative jumps

A relative jump is an opcode byte and a signed displacement of one, two or four bytes. The
displacement counts from the address of the next instruction. Addresses wrap at 32 bits.
-/

namespace GuestProbe

open Text

structure RelativeJump where
  width : Width
  displacement : BitVec width.bits
deriving DecidableEq

namespace RelativeJump

/-- The jump whose opcode byte is at the given address. -/
def fetch (memory : Memory) (width : Width) (address : UInt32) :
    Except MemoryError RelativeJump :=
  (memory.loadBits width (address + 1)).map fun displacement => ⟨width, displacement⟩

/-- The number of bytes of the instruction. -/
def length (jump : RelativeJump) : Nat :=
  1 + jump.width.bytes

/-- The address after a jump at the given address. -/
def next (jump : RelativeJump) (address : UInt32) : UInt32 :=
  address + UInt32.ofNat jump.length

/-- The address that a jump at the given address leads to. -/
def target (jump : RelativeJump) (address : UInt32) : UInt32 :=
  jump.next address + UInt32.ofBitVec (jump.displacement.signExtend 32)

/-- The jump leads to a place before the next instruction. -/
def isBackward (jump : RelativeJump) : Bool :=
  jump.displacement.toInt < 0

/-- The instruction at the given address in assembly notation. -/
def disassembly (jump : RelativeJump) (address : UInt32) : String :=
  "jmp " ++ String.ofList (hexDigits 1 (jump.target address))

/-- Continues at the target of a jump at the instruction pointer. -/
def execute (jump : RelativeJump) (registers : RegisterFile) : RegisterFile :=
  registers.write .eip (jump.target (registers.read .eip))

/-- The log of executing a jump. -/
def executionLog (jump : RelativeJump) (registers : RegisterFile) : List LogRecord :=
  let address := registers.read .eip
  [⟨.trace, "jmp " ++ signedText jump.displacement.toInt ++ " from " ++ wideHexText address ++
    " to " ++ wideHexText (jump.target address)⟩]

end RelativeJump

end GuestProbe
