import GuestProbe.Proofs.Processor.Slices

/-! # Accessors with masks of their own

An accessor is for one of four parts of a cell, and its reader and its writer have their masks and
shifts written out (`Part.get`, `Part.set`). The register file computes them from the width and the
lowest bit of a register instead. Both are the same for every register (`RegisterFile.read_eq_get`,
`RegisterFile.write_eq_setCell`).
-/

namespace GuestProbe

/-- A part of a cell that has accessors. -/
inductive Part where
  | whole
  | lowHalf
  | highByte
  | lowByte
deriving DecidableEq, Repr

namespace Part

/-- Reads a part of a cell. -/
def get (contents : UInt32) : Part → UInt32
  | .whole => contents
  | .lowHalf => contents.toUInt16.toUInt32
  | .highByte => (contents >>> 8).toUInt8.toUInt32
  | .lowByte => contents.toUInt8.toUInt32

/-- The contents of a cell after a part of it is written. -/
def set (contents value : UInt32) : Part → UInt32
  | .whole => value
  | .lowHalf => (contents &&& 0xFFFF0000) ||| value.toUInt16.toUInt32
  | .highByte => (contents &&& (0xFFFF00FF : UInt32)) ||| (value.toUInt8.toUInt32 <<< 8)
  | .lowByte => (contents &&& 0xFFFFFF00) ||| value.toUInt8.toUInt32

/-- The position of the lowest bit of a part. -/
def first : Part → Nat
  | .whole | .lowHalf | .lowByte => 0
  | .highByte => 8

/-- The number of bits of a part. -/
def length : Part → Nat
  | .whole => 32
  | .lowHalf => 16
  | .highByte | .lowByte => 8

end Part

/-- The part of its cell that a register is. -/
def Register.part : Register → Part
  | .ax | .cx | .dx | .bx | .sp | .bp | .si | .di => .lowHalf
  | .al | .cl | .dl | .bl => .lowByte
  | .ah | .ch | .dh | .bh => .highByte
  | .eax | .ecx | .edx | .ebx | .esp | .ebp | .esi | .edi | .eip | .eflags => .whole

theorem Register.slice_eq_part (register : Register) :
    register.slice = ⟨register.cell, register.part.first, register.part.length⟩ := by
  cases register <;> rfl

section bits

variable (word : UInt32) (position : Nat)

theorem bitAt_toUInt16 :
    bitAt word.toUInt16.toUInt32 position = (decide (position < 16) && bitAt word position) := by
  rw [bitAt, UInt16.toBitVec_toUInt32, UInt32.toBitVec_toUInt16, BitVec.getLsbD_setWidth,
    BitVec.getLsbD_setWidth]
  by_cases low : position < 16
  · simp [low, bitAt, show position < 32 by omega]
  · simp [low]

theorem bitAt_toUInt8 :
    bitAt word.toUInt8.toUInt32 position = (decide (position < 8) && bitAt word position) := by
  rw [bitAt, UInt8.toBitVec_toUInt32, UInt32.toBitVec_toUInt8, BitVec.getLsbD_setWidth,
    BitVec.getLsbD_setWidth]
  by_cases low : position < 8
  · simp [low, bitAt, show position < 32 by omega]
  · simp [low]

end bits

namespace Part

variable (part : Part) (contents value : UInt32) {position : Nat}

theorem bitAt_get (inside : position < 32) :
    bitAt (part.get contents) position =
      (decide (position < part.length) && bitAt contents (part.first + position)) := by
  cases part with
  | whole => simp [get, length, first, inside]
  | lowHalf =>
    rw [get, bitAt_toUInt16, first, Nat.zero_add]
    rfl
  | lowByte =>
    rw [get, bitAt_toUInt8, first, Nat.zero_add]
    rfl
  | highByte =>
    rw [get, bitAt_toUInt8, bitAt_shiftRight _ _ _ (by decide)]
    rfl

/-- The masks keep the bits outside of the part. -/
theorem bitAt_masks :
    ∀ place : Fin 32,
      bitAt 0xFFFF0000 place = decide (16 ≤ place.val) ∧
      bitAt 0xFFFF00FF place = decide (place.val < 8 ∨ 16 ≤ place.val) ∧
      bitAt 0xFFFFFF00 place = decide (8 ≤ place.val) := by
  decide +kernel

theorem bitAt_set (inside : position < 32) :
    bitAt (part.set contents value) position =
      if part.first ≤ position ∧ position < part.first + part.length then
        bitAt value (position - part.first)
      else bitAt contents position := by
  obtain ⟨upperHalf, allButHigh, allButLow⟩ := bitAt_masks ⟨position, inside⟩
  dsimp only at upperHalf allButHigh allButLow
  cases part with
  | whole => simp [set, length, first, inside]
  | lowHalf =>
    rw [set, bitAt_or, bitAt_and, upperHalf, bitAt_toUInt16]
    by_cases low : position < 16
    · simp [length, first, low, Nat.not_le_of_lt low]
    · simp [length, first, low, Nat.le_of_not_lt low]
  | lowByte =>
    rw [set, bitAt_or, bitAt_and, allButLow, bitAt_toUInt8]
    by_cases low : position < 8
    · simp [length, first, low, Nat.not_le_of_lt low]
    · simp [length, first, low, Nat.le_of_not_lt low]
  | highByte =>
    have shift : (8 : UInt32).toNat = 8 := rfl
    rw [set, bitAt_or, bitAt_and, allButHigh, bitAt_shiftLeft _ _ _ (by decide), bitAt_toUInt8,
      shift]
    by_cases below : position < 8
    · simp [length, first, below, Nat.not_le_of_lt below]
    · by_cases within : position < 16
      · have near : position - 8 < 8 := by omega
        simp [length, first, below, within, near, inside, Nat.le_of_not_lt below,
          Nat.not_le_of_lt within]
      · have far : ¬position - 8 < 8 := by omega
        simp [length, first, within, far, Nat.le_of_not_lt within]

end Part

namespace RegisterFile

variable (registers : RegisterFile) (register : Register)

/-- A register is read by the accessor for its part of the cell. -/
theorem read_eq_get :
    registers.read register = register.part.get (registers.cells register.cell) := by
  apply eq_of_bitAt
  intro position inside
  rw [bitAt_read, register.part.bitAt_get _ inside, register.slice_eq_part]

theorem merge_eq_set (contents value : UInt32) :
    merge register contents value = register.part.set contents value := by
  apply eq_of_bitAt
  intro position inside
  rw [bitAt_merge, register.part.bitAt_set _ _ inside, register.slice_eq_part]
  simp only [Slice.Holds, true_and]

/-- A register is written by the accessor for its part of the cell, and a write to the flags
register keeps the status flags and sets the reserved one. -/
theorem write_eq_setCell (value : UInt32) :
    registers.write register value = registers.setCell register.cell
      (if register = .eflags then (value &&& 0xFD5) ||| 2
      else register.part.set (registers.cells register.cell) value) := by
  rw [write, merge_eq_set]
  by_cases flags : register = .eflags
  · rw [if_pos flags, if_pos flags, flagsWord_eq, flags]
    rfl
  · rw [if_neg flags, if_neg flags]

end RegisterFile

end GuestProbe
