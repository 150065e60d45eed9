import GuestProbe.Proofs.Memory.Reachability

/-! # Words and their bytes

A word of one, two or four bytes is the sum of its bytes by their places, and is extended with zeros
whatever its highest bit (`Memory.toNat_extended`). If some of the bytes cannot be loaded, the first
of them gives the fault. The bytes follow each other modulo `2 ^ 32`, and a memory that reads them
in one piece where they do not wrap around reads the same as one that loads each of them
(`reads_are_sums_of_bytes`).
-/

namespace GuestProbe

namespace Memory

/-- Bits that are extended with zeros to a word keep their value. -/
theorem toNat_extended {width : Width} (bits : BitVec width.bits) :
    (UInt32.ofBitVec (bits.setWidth 32)).toNat = bits.toNat := by
  have narrow : width.bits ≤ 32 := by cases width <;> decide
  rw [UInt32.toNat_ofBitVec, BitVec.toNat_setWidth_of_le narrow]

end Memory

/-- A read of one, two or four bytes through a flat segment gives the sum of the bytes by their
places if all of them can be loaded, and otherwise a fault at the first that cannot. A memory that
covers the address space has all bytes, and has them in one piece unless they wrap around its end.
Bytes in one piece are those that are loaded one at a time, and so are the bits and the signed
number that they form. -/
theorem reads_are_sums_of_bytes {memory : Memory} (reachable : memory.Reachable)
    (address : UInt32) (width : Width) {segment : Segment} (flat : segment.isFlat = true) :
    let byteAt := fun index : Nat => memory.load (address + UInt32.ofNat index)
    (∀ bytes : Fin width.bytes → UInt8,
      (∀ index : Fin width.bytes, byteAt index = .ok (bytes index)) →
      ∃ word, memory.read address width.bytes segment = .ok word ∧
        word.toNat = ∑ index, (bytes index).toNat * 256 ^ index.val) ∧
    (∀ index < width.bytes, (∀ earlier < index, ∃ byte, byteAt earlier = .ok byte) →
      (∀ byte, byteAt index ≠ .ok byte) →
      memory.read address width.bytes segment = .error (.fault (address + UInt32.ofNat index))) ∧
    (memory.backing = .reserved →
      (∀ index, ∃ byte, byteAt index = .ok byte) ∧
      ((memory.piece? width.bytes address).isSome = true ↔
        address.toNat + width.bytes ≤ addressSpace)) ∧
    (∀ bytes, memory.piece? width.bytes address = some bytes →
      memory.loadEach width.bytes address = .ok bytes) ∧
    (memory.loadBits width address =
      (memory.loadEach width.bytes address).map fun bytes =>
        BitVec.ofNat width.bits (Memory.littleEndian bytes)) ∧
    memory.loadSigned width address =
      (memory.loadEach width.bytes address).map fun bytes =>
        (BitVec.ofNat width.bits (Memory.littleEndian bytes)).toInt := by
  intro byteAt
  rw [memory.read_eq address width flat]
  refine ⟨?_, ?_, ?_, ?_, memory.loadBits_eq width address, ?_⟩
  · intro bytes each
    have value := Memory.toNat_bits bytes
    refine ⟨_, map_eq_ok_iff.mpr ⟨_, ?_, rfl⟩, (Memory.toNat_extended _).trans value⟩
    exact (memory.loadBits_eq_ok_iff ..).mpr ⟨bytes, each, value⟩
  · intro index inside before missing
    exact map_eq_error_iff.mpr
      ((memory.loadBits_eq_error_iff ..).mpr ⟨index, inside, before, missing, rfl⟩)
  · intro isReserved
    exact ⟨fun index => reachable.load_of_isReserved isReserved _,
      reachable.isSome_piece?_iff isReserved width.bytes address⟩
  · intro bytes piece
    rw [← memory.loadBytes_eq_loadEach, Memory.loadBytes, piece]
  · rw [Memory.loadSigned, memory.loadBits_eq]
    cases memory.loadEach width.bytes address <;> rfl

/-- Two bytes at the end of the address space and one at its start, of which the highest is set: a
word across the end is read as a sum, with a zero behind the three. An array of four bytes ends
within a word. -/
theorem reads_are_sums_of_bytes_across_end :
    let memory := (Memory.reserved.performAll
      [.range 0xFFFFFFFE 0xFFFFFFFF #[0x11, 0x22] "end", .range 0 0 #[0xF3] "start"]).2
    let array := Memory.array #[1, 2, 3, 4]
    memory.Reachable ∧ array.Reachable ∧
      memory.read 0xFFFFFFFE 4 .ss = .ok 0xF32211 ∧ memory.read 0 1 .es = .ok 0xF3 ∧
      memory.piece? 4 0xFFFFFFFE = none ∧
      array.read 2 4 .ds = .error (.fault 4) := by
  intro memory array
  have reachable : memory.Reachable := Memory.Reachable.reserved.performAll _
  have reachableArray : array.Reachable := .array _
  have flat : Segment.ss.isFlat = true ∧ Segment.es.isFlat = true ∧ Segment.ds.isFlat = true := by
    decide
  obtain ⟨across, -, whole, -⟩ := reads_are_sums_of_bytes reachable 0xFFFFFFFE .bits32 flat.1
  obtain ⟨single, -⟩ := reads_are_sums_of_bytes reachable 0 .bits8 flat.2.1
  obtain ⟨-, fault, -⟩ := reads_are_sums_of_bytes reachableArray 2 .bits32 flat.2.2
  refine ⟨reachable, reachableArray, ?_, ?_, ?_, ?_⟩
  · obtain ⟨word, read, value⟩ := across ![0x11, 0x22, 0xF3, 0] (by decide)
    rw [UInt32.toNat_inj.mp (value.trans (by decide) : word.toNat = (0xF32211 : UInt32).toNat)]
      at read
    exact read
  · obtain ⟨word, read, value⟩ := single ![0xF3] (by decide)
    rw [UInt32.toNat_inj.mp (value.trans (by decide) : word.toNat = (0xF3 : UInt32).toNat)] at read
    exact read
  · exact Option.not_isSome_iff_eq_none.mp fun some => absurd ((whole rfl).2.mp some) (by decide)
  · have missing : array.load 4 = .error (.fault 4) := by decide
    refine fault 2 (by decide) ?_ fun byte loaded => by cases missing.symm.trans loaded
    intro earlier before
    match earlier, before with
    | 0, _ => exact ⟨3, rfl⟩
    | 1, _ => exact ⟨4, rfl⟩

end GuestProbe
