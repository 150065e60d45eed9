import GuestProbe.Proofs.Memory.Contents
import GuestProbe.Proofs.Processor.Jumps
import Mathlib.Tactic.LinearCombination

/-! # Displacements and targets

The displacement that leads from the address behind a jump to a target is the distance between the
two as a signed 32-bit number (`RelativeJump.target_eq_iff`). So a jump of some width reaches the
targets whose distance fits into the width, each by one displacement, and its direction tells the
order of the two addresses as long as the sum of address and displacement does not wrap.

A displacement is stored as its bytes in two's complement, the lowest first, at the addresses behind
the opcode byte. From there the jump is fetched again (`RelativeJump.fetch_of_holds`).
-/

namespace GuestProbe

/-- A signed number of this width. -/
def Width.Fits (width : Width) (number : Int) : Prop :=
  -2 ^ (width.bits - 1) ≤ number ∧ number < 2 ^ (width.bits - 1)

instance (width : Width) (number : Int) : Decidable (width.Fits number) :=
  inferInstanceAs (Decidable (_ ∧ _))

/-- The way from one address to another, modulo `2 ^ 32`, as a signed 32-bit number. -/
def signedDistance (first second : UInt32) : Int :=
  Int.bmod (second.toNat - first.toNat) (2 ^ 32)

/-- A byte of a number in two's complement, counted from the lowest. -/
def signedByte (number : Int) (index : Nat) : UInt8 :=
  UInt8.ofNat (number / 256 ^ index % 256).toNat

namespace Width

theorem fits_toInt {width : Width} (bits : BitVec width.bits) : width.Fits bits.toInt :=
  ⟨BitVec.le_toInt bits, BitVec.toInt_lt⟩

theorem toInt_ofInt_of_fits {width : Width} {number : Int} (fits : width.Fits number) :
    (BitVec.ofInt width.bits number).toInt = number := by
  have positive : 0 < width.bits := by cases width <;> decide
  exact BitVec.toInt_ofInt_eq_self positive fits.1 fits.2

/-- A number that fits into some width fits into 32 bits. -/
theorem Fits.word {width : Width} {number : Int} (fits : width.Fits number) :
    -2 ^ 31 ≤ number ∧ number < 2 ^ 31 := by
  cases width <;> simp only [Fits, bits, bytes, Nat.reduceMul, Nat.reduceSub] at fits <;> omega

end Width

theorem signedDistance_eq_iff (first second : UInt32) (number : Int) :
    signedDistance first second = number ↔
      Width.bits32.Fits number ∧ (first.toNat + number) % 2 ^ 32 = second.toNat := by
  have bound := second.toNat_lt
  rw [signedDistance, Int.bmod_eq_iff (by decide)]
  simp only [Width.Fits, Width.bits, Width.bytes]
  omega

/-! ## Bytes of a displacement -/

/-- The lowest bytes of a number and what is left above them. -/
theorem sum_signedByte (number : Int) (count : Nat) :
    ((∑ index : Fin count, (signedByte number index).toNat * 256 ^ index.val : Nat) : Int) +
      256 ^ count * (number / 256 ^ count) = number := by
  induction count with
  | zero => simp
  | succ count ih =>
    have byte : ((signedByte number count).toNat : Int) = number / 256 ^ count % 256 := by
      rw [signedByte, UInt8.toNat_ofNat']
      omega
    have above : number / 256 ^ (count + 1) = number / 256 ^ count / 256 := by
      rw [pow_succ, Int.ediv_ediv_of_nonneg (Int.pow_nonneg (by decide))]
    -- What is left above the lower bytes splits into one more byte and the rest.
    have split := Int.emod_add_mul_ediv (number / 256 ^ count) 256
    rw [Fin.sum_univ_castSucc, above]
    push_cast at ih ⊢
    simp only [Fin.val_castSucc, byte]
    linear_combination ih + 256 ^ count * split

theorem signedNumber_signedByte {width : Width} {number : Int} (fits : width.Fits number) :
    signedNumber (fun index : Fin width.bytes => signedByte number index) = number := by
  have sum := sum_signedByte number width.bytes
  rw [signedNumber]
  generalize (∑ index : Fin width.bytes, (signedByte number index).toNat * 256 ^ index.val : Nat) =
    low at sum ⊢
  cases width <;>
    simp only [Width.Fits, Width.bits, Width.bytes, Nat.reduceMul, Nat.reduceSub] at fits sum ⊢ <;>
    omega

/-! ## Targets -/

namespace RelativeJump

theorem next_eq (jump : RelativeJump) (address : UInt32) :
    jump.next address = displacementAddress address jump.width.bytes := by
  rw [next, length, displacementAddress_eq, UInt32.ofNat_add, UInt32.add_assoc]
  rfl

/-- The target lies behind the jump by the displacement, modulo `2 ^ 32`. -/
theorem toNat_target_eq_next (jump : RelativeJump) (address : UInt32) :
    ((jump.target address).toNat : Int) =
      ((jump.next address).toNat + jump.displacement.toInt) % 2 ^ 32 := by
  have behind : ((jump.next address).toNat : Int) =
      (address.toNat + 1 + jump.width.bytes) % 2 ^ 32 := by
    rw [next_eq, displacementAddress, UInt32.toNat_ofNat']
    push_cast
    rfl
  rw [toNat_target, behind, Int.emod_add_emod]

/-- The displacement that leads to a target is the distance to it. -/
theorem target_eq_iff (jump : RelativeJump) (address target : UInt32) :
    jump.target address = target ↔
      signedDistance (jump.next address) target = jump.displacement.toInt := by
  rw [signedDistance_eq_iff, ← toNat_target_eq_next, Int.natCast_inj, UInt32.toNat_inj]
  exact (and_iff_right (Width.fits_toInt jump.displacement).word).symm

/-- The direction of a jump tells whether its target comes before the next instruction, unless the
sum of address and displacement wraps. -/
theorem isBackward_iff_lt_iff (jump : RelativeJump) (address : UInt32) :
    ((jump.isBackward = true) ↔ jump.target address < jump.next address) ↔
      0 ≤ (jump.next address).toNat + jump.displacement.toInt ∧
        (jump.next address).toNat + jump.displacement.toInt < 2 ^ 32 := by
  have target := jump.toNat_target_eq_next address
  have bound := (jump.next address).toNat_lt
  obtain ⟨lower, upper⟩ := (Width.fits_toInt jump.displacement).word
  rw [isBackward, decide_eq_true_iff, UInt32.lt_iff_toNat_lt]
  omega

end RelativeJump

/-! ## Storing a displacement -/

/-- A call that maps a single byte. -/
def MappingCall.byte (address : UInt32) (value : UInt8) (name : String) : MappingCall :=
  .range address address #[value] name

theorem MappingCall.byte_contains_iff (address other : UInt32) (value : UInt8) (name : String) :
    (byte address value name).mapping.contains other = true ↔ other = address := by
  rw [Mapping.contains_iff]
  exact ⟨fun ⟨fromFirst, toLast⟩ => UInt32.le_antisymm toLast fromFirst,
    fun same => same ▸ ⟨UInt32.le_refl _, UInt32.le_refl _⟩⟩

namespace Memory

variable {memory : Memory}

/-- A byte can be mapped at every address that is not mapped. -/
theorem perform_byte {address : UInt32} (free : memory.mappingAt? address = none) (value : UInt8)
    (name : String) :
    memory.perform (.byte address value name) =
      (.ok (), memory.extended (.byte address value name)) :=
  perform_of_free (UInt32.lt_irrefl address) free

/-- Bytes that are mapped at different addresses are all there in the end. -/
theorem load_performAll_byte {cells : List (UInt32 × UInt8)}
    (distinct : (cells.map Prod.fst).Nodup)
    (free : ∀ cell ∈ cells, memory.mappingAt? cell.1 = none) (name : String) :
    ∀ cell ∈ cells,
      (memory.performAll (cells.map fun cell => .byte cell.1 cell.2 name)).2.load cell.1 =
        .ok cell.2 := by
  induction cells generalizing memory with
  | nil =>
    intro cell none
    cases none
  | cons first rest ih =>
    obtain ⟨fresh, distinctRest⟩ := List.nodup_cons.mp distinct
    obtain ⟨freeFirst, freeRest⟩ := List.forall_mem_cons.mp free
    have apart : ∀ cell ∈ rest, cell.1 ≠ first.1 := fun cell member same =>
      fresh (same ▸ List.mem_map_of_mem member)
    have stored : (memory.extended (.byte first.1 first.2 name)).load first.1 = .ok first.2 := by
      rw [load_extended_of_contains memory ((MappingCall.byte_contains_iff ..).mpr rfl)]
      change Except.ok (#[first.2].getD (first.1.toNat - first.1.toNat) 0) = _
      rw [Nat.sub_self]
      rfl
    have freeAfter : ∀ cell ∈ rest,
        (memory.extended (.byte first.1 first.2 name)).mappingAt? cell.1 = none := by
      intro cell member
      have other := mt (MappingCall.byte_contains_iff first.1 cell.1 first.2 name).mp
        (apart cell member)
      have before : memory.mappings.find? (·.contains cell.1) = none := freeRest cell member
      rw [mappingAt?, extended, List.find?_append, before, List.find?_singleton, if_neg other]
      rfl
    simp only [List.map_cons, performAll, perform_byte freeFirst]
    intro cell member
    rcases List.mem_cons.mp member with rfl | later
    · -- The later calls are about other addresses, so they leave the byte alone.
      refine load_performAll_of_ok ?_ stored
      intro call called
      obtain ⟨other, among, rfl⟩ := List.mem_map.mp called
      exact Bool.eq_false_iff.mpr
        (mt (MappingCall.byte_contains_iff ..).mp (apart other among).symm)
    · exact ih distinctRest freeAfter cell later

/-- The bytes of a number lie behind the opcode byte of a jump at an address. -/
def HoldsDisplacement (memory : Memory) (width : Width) (address : UInt32) (number : Int) : Prop :=
  ∀ index : Fin width.bytes,
    memory.load (displacementAddress address index) = .ok (signedByte number index)

end Memory

/-- The addresses and the bytes of a number behind the opcode byte of a jump at an address. -/
def displacementCells (width : Width) (address : UInt32) (number : Int) : List (UInt32 × UInt8) :=
  (List.finRange width.bytes).map fun index : Fin width.bytes =>
    (displacementAddress address index, signedByte number index)

theorem nodup_displacementCells (width : Width) (address : UInt32) (number : Int) :
    ((displacementCells width address number).map Prod.fst).Nodup := by
  rw [displacementCells, List.map_map]
  refine (List.nodup_finRange _).map fun first second same => Fin.ext ?_
  have few : width.bytes ≤ 4 := by cases width <;> decide
  have numbers : (displacementAddress address first).toNat =
      (displacementAddress address second).toNat := congrArg UInt32.toNat same
  rw [displacementAddress, displacementAddress, UInt32.toNat_ofNat', UInt32.toNat_ofNat'] at numbers
  omega

theorem Memory.holdsDisplacement_performAll {memory : Memory} {width : Width} {address : UInt32}
    (free : ∀ index : Fin width.bytes,
      memory.mappingAt? (displacementAddress address index) = none)
    (number : Int) (name : String) :
    (memory.performAll ((displacementCells width address number).map fun cell =>
      .byte cell.1 cell.2 name)).2.HoldsDisplacement width address number := by
  intro index
  refine Memory.load_performAll_byte (nodup_displacementCells width address number) ?_ name
    (displacementAddress address index, signedByte number index) ?_
  · intro cell member
    obtain ⟨index, -, rfl⟩ := List.mem_map.mp member
    exact free index
  · exact List.mem_map_of_mem (List.mem_finRange index)

theorem RelativeJump.fetch_of_holds {memory : Memory} {width : Width} {address : UInt32}
    {number : Int} (fits : width.Fits number)
    (holds : memory.HoldsDisplacement width address number) :
    fetch memory width address = .ok ⟨width, BitVec.ofInt width.bits number⟩ := by
  refine (fetch_eq_ok_iff ..).mpr ⟨_, holds, rfl, ?_⟩
  rw [Width.toInt_ofInt_of_fits fits, signedNumber_signedByte fits]

/-- Jumps of one width at one address lead to different targets with different displacements. They
reach the addresses whose distance from the next instruction, as a signed number, fits into the
width; 32 bits reach every address. This distance is then the displacement: with its bytes behind
the opcode byte, where they can be mapped unless something is mapped there, the jump that is fetched
leads to the target. Two jumps with the same displacement and the same next instruction have the
same target, whatever their widths. A jump is backward exactly when its target comes before the
next instruction, as long as the sum of address and displacement does not wrap, and only then. -/
theorem targets_correspond (width : Width) (eip : UInt32) :
    let next := UInt32.ofNat (eip.toNat + 1 + width.bytes)
    let target := fun displacement : BitVec width.bits =>
      RelativeJump.target ⟨width, displacement⟩ eip
    Function.Injective target ∧
    (∀ address, (∃ displacement, target displacement = address) ↔
      width.Fits (signedDistance next address)) ∧
    (width = .bits32 → ∀ address, width.Fits (signedDistance next address)) ∧
    (∀ address, width.Fits (signedDistance next address) → ∀ memory : Memory,
      memory.HoldsDisplacement width eip (signedDistance next address) →
      ∃ displacement, RelativeJump.fetch memory width eip = .ok ⟨width, displacement⟩ ∧
        displacement.toInt = signedDistance next address ∧ target displacement = address) ∧
    (∀ (memory : Memory) (number : Int) (name : String),
      (∀ index : Fin width.bytes, memory.mappingAt? (displacementAddress eip index) = none) →
      (memory.performAll ((displacementCells width eip number).map fun cell =>
        .byte cell.1 cell.2 name)).2.HoldsDisplacement width eip number) ∧
    (∀ displacement, ∀ other : RelativeJump, ∀ place : UInt32,
      displacement.toInt = other.displacement.toInt → next = other.next place →
      target displacement = other.target place) ∧
    ∀ displacement,
      ((RelativeJump.isBackward ⟨width, displacement⟩ = true) ↔ target displacement < next) ↔
        0 ≤ next.toNat + displacement.toInt ∧ next.toNat + displacement.toInt < 2 ^ 32 := by
  intro next target
  have isNext (displacement : BitVec width.bits) :
      RelativeJump.next ⟨width, displacement⟩ eip = next := RelativeJump.next_eq _ eip
  have leads (displacement : BitVec width.bits) (address : UInt32) :
      target displacement = address ↔ signedDistance next address = displacement.toInt := by
    rw [← isNext displacement]
    exact RelativeJump.target_eq_iff ⟨width, displacement⟩ eip address
  refine ⟨?injective, ?reached, ?every, ?fetched, ?stored, ?widths, ?direction⟩
  case injective =>
    intro first second same
    exact BitVec.eq_of_toInt_eq (((leads first _).mp same).symm.trans ((leads second _).mp rfl))
  case reached =>
    intro address
    simp only [leads]
    constructor
    · rintro ⟨displacement, distance⟩
      rw [distance]
      exact Width.fits_toInt displacement
    · exact fun fits => ⟨_, (Width.toInt_ofInt_of_fits fits).symm⟩
  case every =>
    rintro rfl address
    exact ((signedDistance_eq_iff next address _).mp rfl).1
  case fetched =>
    intro address fits memory holds
    have number := Width.toInt_ofInt_of_fits fits
    exact ⟨_, RelativeJump.fetch_of_holds fits holds, number, (leads _ address).mpr number.symm⟩
  case stored =>
    intro memory number name free
    exact memory.holdsDisplacement_performAll free number name
  case widths =>
    intro displacement other place same sameNext
    rw [leads, same, sameNext]
    exact (other.target_eq_iff place _).mp rfl
  case direction =>
    intro displacement
    rw [← isNext displacement]
    exact RelativeJump.isBackward_iff_lt_iff ⟨width, displacement⟩ eip

/-- A jump with a displacement of two bytes, of which the first has the last address of all. It
reaches the address 17 before its next instruction, which is the greater one, and is fetched from
where the distance was stored. The address 0x10000 is too far away. -/
theorem targets_correspond_across_end :
    let memory := (Memory.reserved.performAll
      ((displacementCells .bits16 0xFFFFFFFE (-17)).map fun cell =>
        .byte cell.1 cell.2 "jump")).2
    signedDistance 1 0xFFFFFFF0 = -17 ∧ memory.load 0xFFFFFFFF = .ok 0xEF ∧
      (∃ displacement, RelativeJump.fetch memory .bits16 0xFFFFFFFE = .ok ⟨.bits16, displacement⟩ ∧
        displacement.toInt = -17 ∧
        RelativeJump.target ⟨.bits16, displacement⟩ 0xFFFFFFFE = 0xFFFFFFF0) ∧
      ¬∃ displacement, RelativeJump.target ⟨.bits16, displacement⟩ 0xFFFFFFFE = 0x10000 := by
  intro memory
  obtain ⟨-, reached, -, fetched, stored, -⟩ := targets_correspond .bits16 0xFFFFFFFE
  have holds := stored .reserved (-17) "jump" fun _ => rfl
  have distance : signedDistance 1 0xFFFFFFF0 = -17 := by decide
  have found := fetched 0xFFFFFFF0 (by decide) memory holds
  refine ⟨distance, holds ⟨0, by decide⟩, found, ?_⟩
  exact fun reaches => absurd ((reached 0x10000).mp reaches) (by decide)

end GuestProbe
