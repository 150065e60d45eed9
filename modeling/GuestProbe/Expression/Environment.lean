import GuestProbe.Memory.Error

/-! # What an expression can observe

An expression reads registers and symbols by name and memory by address. An environment gives the
answers, whatever the machine behind it is, and says what an unknown symbol stands for.
-/

namespace GuestProbe

/-- The answers of a machine to the questions of an expression. -/
structure Environment where
  /-- The word in a register, or nothing if there is no such register. -/
  register : String → Option UInt32
  /-- The value of the given number of bytes at an address of a segment. -/
  memory : UInt32 → Nat → Segment → Except MemoryError UInt32
  /-- The word for a symbol, or nothing if the symbol is unknown. -/
  symbol : String → Option UInt32
  /-- Unknown symbols get `unknownSymbolWord` instead of being errors. -/
  lenient : Bool

/-- The word for unknown symbols where they are allowed. -/
def unknownSymbolWord : UInt32 := 0xFFFFFFFF

end GuestProbe
