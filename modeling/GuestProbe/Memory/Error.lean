import GuestProbe.Memory.Segment
import GuestProbe.Text.Numeral

/-! # Memory errors

`MemoryError` says why a read failed and `MappingError` why a mapping was refused.
-/

namespace GuestProbe

inductive MemoryError where
  /-- No memory backs the address. -/
  | fault (address : UInt32)
  /-- The segment does not cover the flat address space. -/
  | unsupportedSegment (segment : Segment)
  /-- No access has this number of bytes. -/
  | invalidSize (bytes : Nat)
deriving DecidableEq, Repr

def MemoryError.message : MemoryError → String
  | .fault address => "cannot access memory at address " ++ Text.wideHexText address
  | .unsupportedSegment segment => "segment " ++ segment.name ++ " is not supported"
  | .invalidSize bytes => "invalid access size of " ++ Text.decimalText bytes ++ " bytes"

inductive MappingError where
  /-- The range meets an existing mapping, whose name is given. -/
  | overlap (name : String)
  /-- The range holds no address. -/
  | empty
deriving DecidableEq, Repr

def MappingError.message : MappingError → String
  | .overlap name => "existing mapping '" ++ name ++ "' overlaps"
  | .empty => "attempt to create an empty mapping"

end GuestProbe
