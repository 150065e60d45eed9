import GuestProbe.Processor.RelativeJump

/-! # Registers as slices of cells

The registers are laid out as slices: each of them is a range of bits of a cell, and registers of
one cell overlap. A read gives the bits of the slice (`RegisterFile.bitAt_read`) and a write changes
them alone (`RegisterFile.bitAt_write`), but for the flags register, which keeps its form whatever
is written to it. Both hold of every register file; that the flags have their form in every register
file that writes and jumps lead to is an invariant of a single change
(`RegisterFile.hasFlagsForm_apply`).
-/

namespace GuestProbe

/-- A range of bits of a cell. -/
structure Slice where
  cell : Cell
  /-- The position of the lowest bit. -/
  first : Nat
  /-- The number of bits. -/
  length : Nat
deriving DecidableEq, Repr

namespace Slice

/-- A bit of a cell belongs to a slice. -/
def Holds (slice : Slice) (cell : Cell) (position : Nat) : Prop :=
  cell = slice.cell ∧ slice.first ≤ position ∧ position < slice.first + slice.length

instance (slice : Slice) (cell : Cell) (position : Nat) : Decidable (slice.Holds cell position) :=
  inferInstanceAs (Decidable (_ ∧ _ ∧ _))

end Slice

/-- The layout of the registers. -/
def Register.slice : Register → Slice
  | .eax => ⟨.eax, 0, 32⟩
  | .ax => ⟨.eax, 0, 16⟩
  | .al => ⟨.eax, 0, 8⟩
  | .ah => ⟨.eax, 8, 8⟩
  | .ecx => ⟨.ecx, 0, 32⟩
  | .cx => ⟨.ecx, 0, 16⟩
  | .cl => ⟨.ecx, 0, 8⟩
  | .ch => ⟨.ecx, 8, 8⟩
  | .edx => ⟨.edx, 0, 32⟩
  | .dx => ⟨.edx, 0, 16⟩
  | .dl => ⟨.edx, 0, 8⟩
  | .dh => ⟨.edx, 8, 8⟩
  | .ebx => ⟨.ebx, 0, 32⟩
  | .bx => ⟨.ebx, 0, 16⟩
  | .bl => ⟨.ebx, 0, 8⟩
  | .bh => ⟨.ebx, 8, 8⟩
  | .esp => ⟨.esp, 0, 32⟩
  | .sp => ⟨.esp, 0, 16⟩
  | .ebp => ⟨.ebp, 0, 32⟩
  | .bp => ⟨.ebp, 0, 16⟩
  | .esi => ⟨.esi, 0, 32⟩
  | .si => ⟨.esi, 0, 16⟩
  | .edi => ⟨.edi, 0, 32⟩
  | .di => ⟨.edi, 0, 16⟩
  | .eip => ⟨.eip, 0, 32⟩
  | .eflags => ⟨.eflags, 0, 32⟩

/-- A bit of a word; there are none from position 32 on. -/
def bitAt (word : UInt32) (position : Nat) : Bool :=
  word.toBitVec.getLsbD position

section bits

variable (word other amount : UInt32) (position : Nat)

theorem bitAt_of_ge (beyond : 32 ≤ position) : bitAt word position = false :=
  BitVec.getLsbD_of_ge _ _ beyond

theorem bitAt_and :
    bitAt (word &&& other) position = (bitAt word position && bitAt other position) :=
  BitVec.getLsbD_and

theorem bitAt_or :
    bitAt (word ||| other) position = (bitAt word position || bitAt other position) :=
  BitVec.getLsbD_or

theorem bitAt_not : bitAt (~~~word) position = (decide (position < 32) && !bitAt word position) :=
  BitVec.getLsbD_not

theorem bitAt_shiftLeft (small : amount.toNat < 32) :
    bitAt (word <<< amount) position =
      (decide (position < 32) && !decide (position < amount.toNat) &&
        bitAt word (position - amount.toNat)) := by
  have kept : (amount.toBitVec % 32).toNat = amount.toNat := Nat.mod_eq_of_lt small
  rw [bitAt, UInt32.toBitVec_shiftLeft, BitVec.getLsbD_shiftLeft', kept]
  rfl

theorem bitAt_shiftRight (small : amount.toNat < 32) :
    bitAt (word >>> amount) position = bitAt word (amount.toNat + position) := by
  have kept : (amount.toBitVec % 32).toNat = amount.toNat := Nat.mod_eq_of_lt small
  rw [bitAt, UInt32.toBitVec_shiftRight, BitVec.ushiftRight_eq', BitVec.getLsbD_ushiftRight, kept]
  rfl

/-- Words with the same bits are the same. -/
theorem eq_of_bitAt (same : ∀ position < 32, bitAt word position = bitAt other position) :
    word = other :=
  UInt32.toBitVec_inj.mp (BitVec.eq_of_getLsbD_eq same)

end bits

/-! ## Masks -/

theorem Width.bitAt_mask (width : Width) (position : Nat) :
    bitAt width.mask position = decide (position < width.bits) := by
  by_cases beyond : 32 ≤ position
  · have : width.bits ≤ 32 := by cases width <;> decide
    rw [bitAt_of_ge _ _ beyond, eq_comm, decide_eq_false_iff_not]
    omega
  · have table : ∀ place : Fin 32, bitAt width.mask place = decide (place < width.bits) := by
      cases width <;> decide +kernel
    exact table ⟨position, by omega⟩

namespace Register

variable (register : Register) (position : Nat)

theorem slice_cell : register.slice.cell = register.cell := by
  cases register <;> rfl

theorem slice_first : register.slice.first = register.lowBit.toNat := by
  cases register <;> rfl

theorem slice_length : register.slice.length = register.width.bits := by
  cases register <;> rfl

/-- A slice ends within its cell. -/
theorem slice_le : register.slice.first + register.slice.length ≤ 32 := by
  cases register <;> decide

/-- The instruction pointer and the flags register share their cells with no other register. -/
theorem cell_ne_of_alone (alone : register = .eip ∨ register = .eflags) {other : Register}
    (apart : other ≠ register) : other.cell ≠ register.cell := by
  rcases alone with rfl | rfl <;> cases other <;> first | decide | contradiction

theorem slice_first_of_whole (whole : register.slice.length = 32) : register.slice.first = 0 := by
  have := register.slice_le
  omega

theorem lowBit_lt : register.lowBit.toNat < 32 := by
  cases register <;> decide

theorem bitAt_mask :
    bitAt register.mask position = decide (register.slice.Holds register.cell position) := by
  have within := register.slice_le
  rw [mask, bitAt_shiftLeft _ _ _ register.lowBit_lt, Width.bitAt_mask, Bool.eq_iff_iff]
  simp only [Bool.and_eq_true, Bool.not_eq_true', decide_eq_true_eq, decide_eq_false_iff_not,
    Slice.Holds, slice_cell, slice_first, slice_length, true_and] at within ⊢
  omega

end Register

namespace RegisterFile

/-! ## Reads and writes -/

/-- A read gives the bits of the slice, extended with zeros. -/
theorem bitAt_read (registers : RegisterFile) (register : Register) (position : Nat) :
    bitAt (registers.read register) position =
      (decide (position < register.slice.length) &&
        bitAt (registers.cells register.slice.cell) (register.slice.first + position)) := by
  rw [read, bitAt_and, bitAt_shiftRight _ _ _ register.lowBit_lt, Width.bitAt_mask, Bool.and_comm,
    register.slice_cell, register.slice_first, register.slice_length]

theorem bitAt_merge (register : Register) (contents value : UInt32) (position : Nat) :
    bitAt (merge register contents value) position =
      if register.slice.Holds register.cell position then
        bitAt value (position - register.slice.first)
      else bitAt contents position := by
  rw [merge, bitAt_or, bitAt_and, bitAt_and, bitAt_not, register.bitAt_mask,
    bitAt_shiftLeft _ _ _ register.lowBit_lt, ← register.slice_first]
  by_cases held : register.slice.Holds register.cell position
  · have within := register.slice_le
    have ⟨_, lower, upper⟩ := held
    have inside : position < 32 := by omega
    simp [held, inside, lower]
  · by_cases inside : position < 32
    · simp [held, inside]
    · simp [held, bitAt_of_ge contents position (by omega)]

theorem cells_write_self (registers : RegisterFile) (register : Register) (value : UInt32)
    (ordinary : register ≠ .eflags) :
    (registers.write register value).cells register.cell =
      merge register (registers.cells register.cell) value := by
  rw [write, if_neg ordinary]
  exact if_pos rfl

/-- A write changes only the cell of its register. -/
theorem cells_write_of_ne (registers : RegisterFile) (register : Register) (value : UInt32)
    {cell : Cell} (apart : cell ≠ register.cell) :
    (registers.write register value).cells cell = registers.cells cell :=
  if_neg apart

theorem read_write_of_ne (registers : RegisterFile) (register : Register) (value : UInt32)
    {other : Register} (apart : other.cell ≠ register.cell) :
    (registers.write register value).read other = registers.read other := by
  rw [read, registers.cells_write_of_ne register value apart]
  rfl

/-- A write replaces the bits of the slice by the low bits of the value and leaves every other bit
of every cell alone. -/
theorem bitAt_write (registers : RegisterFile) (register : Register) (value : UInt32)
    (ordinary : register ≠ .eflags) (cell : Cell) (position : Nat) :
    bitAt ((registers.write register value).cells cell) position =
      if register.slice.Holds cell position then bitAt value (position - register.slice.first)
      else bitAt (registers.cells cell) position := by
  by_cases same : cell = register.cell
  · rw [same, registers.cells_write_self register value ordinary, bitAt_merge]
  · have apart : ¬ register.slice.Holds cell position := fun held =>
      same (held.1.trans register.slice_cell)
    rw [registers.cells_write_of_ne register value same, if_neg apart]

/-- A write changes what another register reads in no bit but those that the slices share. -/
theorem bitAt_read_write (registers : RegisterFile) (register other : Register) (value : UInt32)
    (ordinary : register ≠ .eflags) (position : Nat) :
    bitAt ((registers.write register value).read other) position =
      if position < other.slice.length ∧
          register.slice.Holds other.slice.cell (other.slice.first + position) then
        bitAt value (other.slice.first + position - register.slice.first)
      else bitAt (registers.read other) position := by
  rw [bitAt_read, bitAt_read, registers.bitAt_write register value ordinary]
  by_cases inside : position < other.slice.length
  · simp [inside]
  · simp [inside]

/-- A register that fills its cell gives the contents of the cell. -/
theorem read_of_whole (registers : RegisterFile) (register : Register)
    (whole : register.slice.length = 32) :
    registers.read register = registers.cells register.slice.cell := by
  apply eq_of_bitAt
  intro position inside
  rw [bitAt_read, whole, register.slice_first_of_whole whole, Nat.zero_add]
  simp [inside]

theorem merge_of_whole (register : Register) (whole : register.slice.length = 32)
    (contents value : UInt32) : merge register contents value = value := by
  have fromStart := register.slice_first_of_whole whole
  apply eq_of_bitAt
  intro position inside
  have held : register.slice.Holds register.cell position :=
    ⟨register.slice_cell.symm, by omega, by omega⟩
  rw [bitAt_merge, if_pos held, fromStart, Nat.sub_zero]

/-- What is written to a register that fills its cell is read from it. -/
theorem read_write_of_whole (registers : RegisterFile) (register : Register)
    (whole : register.slice.length = 32) (value : UInt32) (ordinary : register ≠ .eflags) :
    (registers.write register value).read register = value := by
  rw [read_of_whole _ register whole, register.slice_cell,
    registers.cells_write_self register value ordinary, merge_of_whole register whole]

/-! ## Flags -/

/-- The bits that can be set are the status flags and the reserved flag. -/
theorem flagBits_eq_or : flagBits = 0xFD5 ||| 2 := by decide

theorem flagsWord_eq (written : UInt32) : flagsWord written = (written &&& 0xFD5) ||| 2 := by
  apply eq_of_bitAt
  intro position _
  change bitAt (written &&& flagBits ||| 2) position = _
  rw [flagBits_eq_or, bitAt_or, bitAt_and, bitAt_or, bitAt_or, bitAt_and]
  cases bitAt 2 position <;> simp

theorem flagsWord_and_not (written : UInt32) : flagsWord written &&& ~~~flagBits = 0 := by
  apply eq_of_bitAt
  intro position _
  have zero : bitAt 0 position = false := BitVec.getLsbD_zero
  rw [flagsWord_eq, flagBits_eq_or, bitAt_and, bitAt_or, bitAt_and, bitAt_not, bitAt_or, zero]
  cases bitAt 0xFD5 position <;> cases bitAt 2 position <;> simp

theorem cells_write_eflags (registers : RegisterFile) (value : UInt32) (cell : Cell) :
    (registers.write .eflags value).cells cell =
      if cell = .eflags then (value &&& 0xFD5) ||| 2 else registers.cells cell := by
  rw [write, if_pos rfl, merge_of_whole .eflags rfl, flagsWord_eq]
  rfl

/-- The flags are in the form that a write to the flags register gives them. -/
def HasFlagsForm (registers : RegisterFile) : Prop :=
  ∃ written, registers.cells .eflags = flagsWord written

end RegisterFile

/-! ## Changes -/

/-- A change of a register file. -/
inductive RegisterChange where
  /-- A value is written to a register. -/
  | write (register : Register) (value : UInt32)
  /-- A jump at the instruction pointer is executed. -/
  | jump (jump : RelativeJump)

namespace RegisterFile

/-- The register file after a change. -/
def apply (registers : RegisterFile) : RegisterChange → RegisterFile
  | .write register value => registers.write register value
  | .jump jump => jump.execute registers

/-- The register file after changes, one after the other. -/
def applyAll (registers : RegisterFile) (changes : List RegisterChange) : RegisterFile :=
  changes.foldl apply registers

theorem hasFlagsForm_write (registers : RegisterFile) (register : Register) (value : UInt32)
    (form : registers.HasFlagsForm) : (registers.write register value).HasFlagsForm := by
  by_cases flags : register = .eflags
  · refine ⟨value, ?_⟩
    rw [flags, cells_write_eflags, flagsWord_eq]
    rfl
  · obtain ⟨written, holds⟩ := form
    have apart := Register.eflags.cell_ne_of_alone (.inr rfl) flags
    exact ⟨written, (registers.cells_write_of_ne register value apart.symm).trans holds⟩

theorem hasFlagsForm_apply (registers : RegisterFile) (change : RegisterChange)
    (form : registers.HasFlagsForm) : (registers.apply change).HasFlagsForm := by
  cases change with
  | write register value => exact registers.hasFlagsForm_write register value form
  | jump jump => exact registers.hasFlagsForm_write .eip _ form

theorem hasFlagsForm_applyAll (registers : RegisterFile) (changes : List RegisterChange)
    (form : registers.HasFlagsForm) : (registers.applyAll changes).HasFlagsForm := by
  induction changes generalizing registers with
  | nil => exact form
  | cons change later ih => exact ih _ (registers.hasFlagsForm_apply change form)

theorem HasFlagsForm.bits {registers : RegisterFile} (form : registers.HasFlagsForm) :
    bitAt (registers.read .eflags) 1 = true ∧ registers.read .eflags &&& ~~~0xFD7 = 0 := by
  obtain ⟨written, holds⟩ := form
  have word : registers.read .eflags = flagsWord written :=
    (registers.read_of_whole .eflags rfl).trans holds
  rw [word, ← flagBits_eq]
  refine ⟨?_, flagsWord_and_not written⟩
  rw [flagsWord_eq, bitAt_or]
  exact Bool.or_true _

end RegisterFile

/-- In every register file that writes and jumps lead to, the registers are slices of the cells. A
register reads as the bits of its slice; a write replaces these bits by the low bits of the value,
changes no other bit of any cell and so changes another register only in the bits that the slices
share. A write to the flags register sets the status flags of the value and the reserved flag and
changes no other register, and no other bits are ever set in it. -/
theorem registers_are_slices (eip esp : UInt32) (changes : List RegisterChange) :
    let registers := (RegisterFile.initial eip esp).applyAll changes
    (∀ register position,
      bitAt (registers.read register) position =
        (decide (position < register.slice.length) &&
          bitAt (registers.cells register.slice.cell) (register.slice.first + position))) ∧
    (∀ register value, register ≠ .eflags →
      (∀ cell position,
        bitAt ((registers.write register value).cells cell) position =
          if register.slice.Holds cell position then bitAt value (position - register.slice.first)
          else bitAt (registers.cells cell) position) ∧
      ∀ other, ∀ position < other.slice.length,
        ¬ register.slice.Holds other.slice.cell (other.slice.first + position) →
        bitAt ((registers.write register value).read other) position =
          bitAt (registers.read other) position) ∧
    (∀ value,
      (∀ cell,
        (registers.write .eflags value).cells cell =
          if cell = .eflags then (value &&& 0xFD5) ||| 2 else registers.cells cell) ∧
      (registers.write .eflags value).read .eflags = (value &&& 0xFD5) ||| 2 ∧
      ∀ other, other ≠ .eflags →
        (registers.write .eflags value).read other = registers.read other) ∧
    bitAt (registers.read .eflags) 1 = true ∧ registers.read .eflags &&& ~~~0xFD7 = 0 := by
  intro registers
  have form : registers.HasFlagsForm :=
    RegisterFile.hasFlagsForm_applyAll _ changes ⟨0, rfl⟩
  refine ⟨registers.bitAt_read, ?_, ?_, form.bits⟩
  · intro register value ordinary
    refine ⟨registers.bitAt_write register value ordinary, ?_⟩
    intro other position _ apart
    rw [registers.bitAt_read_write register other value ordinary]
    exact if_neg fun shared => apart shared.2
  · intro value
    have cells := registers.cells_write_eflags value
    refine ⟨cells, (RegisterFile.read_of_whole _ .eflags rfl).trans (cells .eflags), ?_⟩
    intro other apart
    have otherCell := Register.eflags.cell_ne_of_alone (.inr rfl) apart
    exact registers.read_write_of_ne .eflags value otherCell

/-- A write to the high byte of a register's low half, after writes and a jump to itself: the low
byte stays as it is. -/
theorem registers_are_slices_of_high_byte :
    let changes : List RegisterChange :=
      [.write .ecx 0x12345678, .write .eflags 0xFFFFFFFF, .jump ⟨.bits8, 0xFE⟩]
    let registers := (RegisterFile.initial 0x100000 0x80000000).applyAll changes
    Register.ch ≠ .eflags ∧ ¬ Register.ch.slice.Holds .ecx 3 ∧ Register.al ≠ .eflags ∧
    registers.read .eip = 0x100000 ∧ registers.read .eflags = 0xFD7 ∧
    bitAt ((registers.write .ch 0xA0).cells .ecx) 15 = true ∧
    bitAt ((registers.write .ch 0xA0).read .cl) 3 = bitAt (registers.read .cl) 3 ∧
    (registers.write .eflags 0).read .al = registers.read .al := by
  intro changes registers
  have ordinary : Register.ch ≠ .eflags := by decide
  have apart : ¬ Register.ch.slice.Holds .ecx 3 := by decide
  have other : Register.al ≠ .eflags := by decide
  obtain ⟨-, writes, flags, -⟩ := registers_are_slices 0x100000 0x80000000 changes
  refine ⟨ordinary, apart, other, by decide +kernel, by decide +kernel, ?_, ?_, ?_⟩
  · exact (writes .ch 0xA0 ordinary).1 .ecx 15
  · exact (writes .ch 0xA0 ordinary).2 .cl 3 (by decide) apart
  · exact (flags 0).2.2 .al other

end GuestProbe
