import GuestProbe.Proofs.Memory.Reading
import GuestProbe.Proofs.Processor.Slices
import Mathlib.Algebra.BigOperators.Fin

/-! # Fetching and executing relative jumps

The displacement of a jump is read from the bytes after its opcode byte, whose addresses wrap at 32
bits. A fetch succeeds when all of these bytes can be loaded, and then the displacement is the
signed number that they form (`RelativeJump.fetch_eq_ok_iff`); otherwise it fails at the first byte
that cannot be loaded (`RelativeJump.fetch_eq_error_iff`). Executing a jump adds its length and its
displacement to the instruction pointer modulo `2 ^ 32` (`RelativeJump.toNat_target`) and changes
nothing else.
-/

namespace GuestProbe

/-- The address of a byte of the displacement of a jump at an address. -/
def displacementAddress (address : UInt32) (index : Nat) : UInt32 :=
  UInt32.ofNat (address.toNat + 1 + index)

/-- The number that bytes form in two's complement, the lowest byte first. -/
def signedNumber {count : Nat} (bytes : Fin count → UInt8) : Int :=
  let number := ∑ index, (bytes index).toNat * 256 ^ index.val
  if 2 * number < 256 ^ count then number else number - 256 ^ count

theorem displacementAddress_eq (address : UInt32) (index : Nat) :
    displacementAddress address index = address + 1 + UInt32.ofNat index := by
  rw [displacementAddress, UInt32.ofNat_add, UInt32.ofNat_add, UInt32.ofNat_toNat]
  rfl

/-- Bits stand for the signed number of the bytes that they consist of. -/
theorem toInt_eq_signedNumber_iff {width : Width} (bits : BitVec width.bits)
    (bytes : Fin width.bytes → UInt8) :
    bits.toInt = signedNumber bytes ↔
      bits.toNat = ∑ index, (bytes index).toNat * 256 ^ index.val := by
  have size : 2 ^ width.bits = 256 ^ width.bytes := Nat.pow_mul 2 8 width.bytes
  have number : (BitVec.ofNat width.bits (Memory.littleEndian (List.ofFn bytes))).toInt =
      signedNumber bytes := by
    rw [BitVec.toInt_eq_toNat_cond, Memory.toNat_bits, size, signedNumber]
    push_cast
    rfl
  rw [← number, ← Memory.toNat_bits bytes, BitVec.toInt_inj, BitVec.toNat_inj]

namespace RelativeJump

/-- A jump is fetched when all bytes of its displacement are loaded. -/
theorem fetch_eq_ok_iff (memory : Memory) (width : Width) (address : UInt32)
    (jump : RelativeJump) :
    fetch memory width address = .ok jump ↔
      ∃ bytes : Fin width.bytes → UInt8,
        (∀ index : Fin width.bytes,
          memory.load (displacementAddress address index) = .ok (bytes index)) ∧
        jump.width = width ∧ jump.displacement.toInt = signedNumber bytes := by
  rw [fetch, map_eq_ok_iff]
  simp only [displacementAddress_eq]
  constructor
  · rintro ⟨bits, loaded, rfl⟩
    obtain ⟨bytes, each, value⟩ := (memory.loadBits_eq_ok_iff ..).mp loaded
    exact ⟨bytes, each, rfl, (toInt_eq_signedNumber_iff bits bytes).mpr value⟩
  · rintro ⟨bytes, each, rfl, number⟩
    have value := (toInt_eq_signedNumber_iff jump.displacement bytes).mp number
    exact ⟨jump.displacement, (memory.loadBits_eq_ok_iff ..).mpr ⟨bytes, each, value⟩, rfl⟩

/-- A fetch fails with a fault at the first byte of the displacement that cannot be loaded. -/
theorem fetch_eq_error_iff (memory : Memory) (width : Width) (address : UInt32)
    (error : MemoryError) :
    fetch memory width address = .error error ↔
      ∃ index < width.bytes,
        (∀ earlier < index, ∃ byte,
          memory.load (displacementAddress address earlier) = .ok byte) ∧
        (∀ byte, memory.load (displacementAddress address index) ≠ .ok byte) ∧
        error = .fault (displacementAddress address index) := by
  rw [fetch, map_eq_error_iff, Memory.loadBits_eq_error_iff]
  simp only [displacementAddress_eq]

theorem toNat_target (jump : RelativeJump) (address : UInt32) :
    ((jump.target address).toNat : Int) =
      (address.toNat + 1 + jump.width.bytes + jump.displacement.toInt) % 2 ^ 32 := by
  have extended : ((UInt32.ofBitVec (jump.displacement.signExtend 32)).toNat : Int) =
      jump.displacement.toInt % 2 ^ 32 := by
    rw [UInt32.toNat_ofBitVec, BitVec.signExtend, BitVec.toNat_ofInt]
    exact Int.toNat_of_nonneg (Int.emod_nonneg _ (by decide))
  rw [target, next, length, UInt32.toNat_add, UInt32.toNat_add, UInt32.toNat_ofNat']
  push_cast
  rw [extended]
  omega

/-- A jump writes its target to the instruction pointer. -/
theorem read_execute_eip (jump : RelativeJump) (registers : RegisterFile) :
    (jump.execute registers).read .eip = jump.target (registers.read .eip) :=
  registers.read_write_of_whole .eip rfl _ (by decide)

/-- A jump changes no register but the instruction pointer. -/
theorem read_execute_of_ne (jump : RelativeJump) (registers : RegisterFile) {other : Register}
    (apart : other ≠ .eip) : (jump.execute registers).read other = registers.read other :=
  registers.read_write_of_ne .eip _ (Register.eip.cell_ne_of_alone (.inl rfl) apart)

end RelativeJump

/-- A fetch of a jump at any address succeeds exactly when all bytes of the displacement can be
loaded, and the displacement is the signed number that they form; otherwise it fails with a fault at
the first of them that cannot. Executing the fetched jump at its address leads to and stores the
address behind it plus its displacement, modulo `2 ^ 32`, and changes nothing else. -/
theorem fetch_and_execute (memory : Memory) (width : Width) (eip : UInt32) :
    ((∃ jump, RelativeJump.fetch memory width eip = .ok jump) ↔
      ∀ index < width.bytes, ∃ byte, memory.load (displacementAddress eip index) = .ok byte) ∧
    (∀ jump, RelativeJump.fetch memory width eip = .ok jump →
      (∃ bytes : Fin width.bytes → UInt8,
        (∀ index : Fin width.bytes,
          memory.load (displacementAddress eip index) = .ok (bytes index)) ∧
        jump.width = width ∧ jump.displacement.toInt = signedNumber bytes) ∧
      ∀ registers : RegisterFile, registers.read .eip = eip →
        ((jump.target (registers.read .eip)).toNat : Int) =
          (eip.toNat + 1 + width.bytes + jump.displacement.toInt) % 2 ^ 32 ∧
        (jump.execute registers).read .eip = jump.target (registers.read .eip) ∧
        (∀ other, other ≠ .eip → (jump.execute registers).read other = registers.read other) ∧
        ∀ cell, cell ≠ .eip → (jump.execute registers).cells cell = registers.cells cell) ∧
    ∀ error, RelativeJump.fetch memory width eip = .error error ↔
      ∃ index < width.bytes,
        (∀ earlier < index, ∃ byte,
          memory.load (displacementAddress eip earlier) = .ok byte) ∧
        (∀ byte, memory.load (displacementAddress eip index) ≠ .ok byte) ∧
        error = .fault (displacementAddress eip index) := by
  have failure := RelativeJump.fetch_eq_error_iff memory width eip
  refine ⟨⟨?_, ?_⟩, ?_, failure⟩
  · rintro ⟨jump, fetched⟩ index inside
    obtain ⟨bytes, each, -⟩ := (RelativeJump.fetch_eq_ok_iff ..).mp fetched
    exact ⟨bytes ⟨index, inside⟩, each ⟨index, inside⟩⟩
  · intro each
    cases fetched : RelativeJump.fetch memory width eip with
    | ok jump => exact ⟨jump, rfl⟩
    | error error =>
      obtain ⟨index, inside, -, missing, -⟩ := (failure error).mp fetched
      obtain ⟨byte, loaded⟩ := each index inside
      exact absurd loaded (missing byte)
  · intro jump fetched
    obtain ⟨bytes, each, rfl, number⟩ := (RelativeJump.fetch_eq_ok_iff ..).mp fetched
    refine ⟨⟨bytes, each, rfl, number⟩, ?_⟩
    intro registers there
    refine ⟨?_, jump.read_execute_eip registers, ?_, ?_⟩
    · rw [there, jump.toNat_target]
    · exact fun other => jump.read_execute_of_ne registers
    · exact fun cell => registers.cells_write_of_ne .eip _

/-- A jump to itself whose opcode byte has the last address of all: its displacement is the first
byte of the memory. -/
theorem fetch_and_execute_of_last_address :
    let memory := Memory.array #[0xFE, 0x12]
    let registers := RegisterFile.initial 0xFFFFFFFF 0
    let jump : RelativeJump := ⟨.bits8, 0xFE⟩
    RelativeJump.fetch memory .bits8 0xFFFFFFFF = .ok jump ∧
    registers.read .eip = 0xFFFFFFFF ∧
    (jump.execute registers).read .eip = 0xFFFFFFFF ∧
    (jump.execute registers).read .eflags = registers.read .eflags := by
  intro memory registers jump
  have fetched : RelativeJump.fetch memory .bits8 0xFFFFFFFF = .ok jump := by
    rw [RelativeJump.fetch, Memory.loadBits_eq]
    rfl
  have there : registers.read .eip = 0xFFFFFFFF := by decide +kernel
  obtain ⟨-, decoded, -⟩ := fetch_and_execute memory .bits8 0xFFFFFFFF
  obtain ⟨_, executed⟩ := decoded jump fetched
  obtain ⟨number, stored, others, _⟩ := executed registers there
  refine ⟨fetched, there, ?_, others .eflags (by decide)⟩
  have value : ((jump.target (registers.read .eip)).toNat : Int) = 0xFFFFFFFF :=
    number.trans (by decide +kernel)
  rw [stored]
  exact UInt32.toNat_inj.mp (Int.ofNat.inj value)

end GuestProbe
