import GuestProbe.Expression.Evaluation
import GuestProbe.Memory.Basic
import GuestProbe.Processor.RelativeJump
import GuestProbe.Symbols.Listing

/-! # The inspected machine

A machine is a register file, a memory and a symbol table, with the choice of what to do about
unknown symbols. Expressions are evaluated against it, memory images are loaded into it, and jumps
can be executed on it.
-/

namespace GuestProbe

structure Machine where
  registers : RegisterFile
  memory : Memory
  symbols : SymbolTable
  /-- Unknown symbols have a value instead of being errors. -/
  lenient : Bool

namespace Machine

/-- A machine without symbols, in which unknown symbols are errors. -/
def initial (registers : RegisterFile) (memory : Memory) : Machine :=
  ⟨registers, memory, .empty, false⟩

/-- What an expression observes of a machine. -/
def environment (machine : Machine) : Environment where
  register := machine.registers.readNamed?
  memory := machine.memory.read
  symbol := machine.symbols.resolve?
  lenient := machine.lenient

/-- Evaluates an expression against a machine. -/
def evaluate (machine : Machine) (expression : String) : Except ExpressionError UInt32 :=
  machine.environment.evaluate expression

/-- The last address of an image, which is the last address of all for an image that is too long. -/
def imageLast (base : UInt32) (size : Nat) : UInt32 :=
  UInt32.ofNat (min (base.toNat + size - 1) (addressSpace - 1))

/-- Maps an image from the base address on, in place. An image that does not fit below the end of
the address space is cut off there. -/
def mapImage (base : UInt32) (image : Array UInt8) (name : String) : Memory.Update Unit :=
  if image.isEmpty then throw .empty
  else Memory.mapRange base (imageLast base image.size) image name

/-- Maps an image into the memory of a machine. -/
def loadImage (machine : Machine) (base : UInt32) (image : Array UInt8) (name : String) :
    Except MappingError Machine := do
  let memory ← machine.memory.updated (mapImage base image name)
  pure { machine with memory }

/-- The log of loading an image. -/
def imageLog (base : UInt32) (image : Array UInt8) (name : String) : List LogRecord :=
  if image.isEmpty then []
  else
    let mapped : LogRecord := ⟨.info, "mapping '" ++ name ++ "' at " ++ Text.wideHexText base ++
      "..=" ++ Text.wideHexText (imageLast base image.size)⟩
    if base.toNat + image.size > addressSpace then
      [⟨.warn, "image '" ++ name ++ "' exceeds the address space, truncating"⟩, mapped]
    else [mapped]

/-- Executes a jump. -/
def execute (machine : Machine) (jump : RelativeJump) : Machine :=
  { machine with registers := jump.execute machine.registers }

end Machine

end GuestProbe
