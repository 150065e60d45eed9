import GuestProbe.Proofs.Expression.Agreement
import GuestProbe.Proofs.Expression.Failure
import GuestProbe.Proofs.Memory.Contents

/-! # An array in place of the address space

A growing array stands in for a memory that covers the whole address space. Under the same calls
both keep the same mappings and the same bytes as far as the array reaches, and the whole memory is
zero beyond (`Memory.Mirrors.performAll`). So a read either gives the same in both or is a fault of
the array, and the same holds for expressions (`array_agrees_with_reserved`).
-/

namespace GuestProbe

namespace Memory

variable {array reserved : Memory} {call : MappingCall}

/-- The array holds the mappings and the bytes of the whole memory, and ends after the last mapped
address at the earliest. -/
structure Mirrors (array reserved : Memory) : Prop where
  mappings : array.mappings = reserved.mappings
  bytes : ∀ address, array.store.padded address = reserved.store.padded address
  whole : reserved.store.size = addressSpace
  fits : array.store.size ≤ addressSpace
  covers : ∀ mapping ∈ array.mappings, mapping.last.toNat < array.store.size

namespace Mirrors

theorem initial : Mirrors (.array #[]) .reserved where
  mappings := rfl
  bytes address := by
    rw [padded_array, padded_reserved]
    rfl
  whole := rfl
  fits := Nat.zero_le _
  covers := by simp [Memory.array]

theorem extended (mirrors : Mirrors array reserved) (call : MappingCall) :
    Mirrors (array.extended call) (reserved.extended call) where
  mappings := congrArg (· ++ [call.mapping]) mirrors.mappings
  bytes address := by rw [padded_extended, padded_extended, mirrors.bytes]
  whole := by
    have bound := call.mapping.last.toNat_lt
    rw [size_extended, mirrors.whole]
    exact Nat.max_eq_left bound
  fits := by
    have bound := call.mapping.last.toNat_lt
    rw [size_extended]
    exact Nat.max_le.mpr ⟨mirrors.fits, bound⟩
  covers := by
    intro mapping member
    rw [size_extended]
    rcases List.mem_append.mp member with old | new
    · exact Nat.lt_of_lt_of_le (mirrors.covers mapping old) (Nat.le_max_left ..)
    · rw [List.mem_singleton.mp new]
      exact Nat.le_max_right ..

/-- A call has the same result in both and keeps them alike. -/
theorem perform (mirrors : Mirrors array reserved) (call : MappingCall) :
    (array.perform call).1 = (reserved.perform call).1 ∧
      Mirrors (array.perform call).2 (reserved.perform call).2 := by
  by_cases asks : call.IsEmpty
  · rw [perform_of_isEmpty array asks, perform_of_isEmpty reserved asks]
    exact ⟨rfl, mirrors⟩
  rw [perform_of_not_isEmpty array asks, perform_of_not_isEmpty reserved asks, mirrors.mappings]
  cases reserved.mappings.find? (·.overlaps call.mapping.first call.mapping.last) with
  | some mapping => exact ⟨rfl, mirrors⟩
  | none => exact ⟨rfl, mirrors.extended call⟩

theorem performAll (mirrors : Mirrors array reserved) (calls : List MappingCall) :
    (array.performAll calls).1 = (reserved.performAll calls).1 ∧
      Mirrors (array.performAll calls).2 (reserved.performAll calls).2 := by
  induction calls generalizing array reserved with
  | nil => exact ⟨rfl, mirrors⟩
  | cons call rest ih =>
    obtain ⟨same, changed⟩ := mirrors.perform call
    obtain ⟨sameRest, final⟩ := ih changed
    exact ⟨congrArg₂ List.cons same sameRest, final⟩

end Mirrors

/-! ## Reading -/

/-- The error is a fault at an address beyond the end of the memory. -/
def IsBeyond (memory : Memory) (error : MemoryError) : Prop :=
  ∃ address, error = .fault address ∧ memory.store.size ≤ address.toNat

theorem loadEach_isBeyond {memory : Memory} {count : Nat} {address : UInt32} {error : MemoryError}
    (failed : memory.loadEach count address = .error error) : memory.IsBeyond error := by
  obtain ⟨index, -, -, missing⟩ := (memory.loadEach_eq_error_iff ..).mp failed
  by_cases within : (address + UInt32.ofNat index).toNat < memory.store.size
  · rw [load_of_lt within] at missing
    cases missing
  · have beyond := Nat.not_lt.mp within
    rw [load_of_le beyond] at missing
    exact ⟨_, (Except.error.inj missing).symm, beyond⟩

/-- Reading a word fails only at an address beyond the end of the memory. -/
theorem read_isBeyond {memory : Memory} {address : UInt32} {error : MemoryError}
    (failed : memory.read address 4 .ds = .error error) : memory.IsBeyond error := by
  rw [read_word, map_eq_error_iff] at failed
  exact loadEach_isBeyond failed

namespace Mirrors

theorem load (mirrors : Mirrors array reserved) (address : UInt32) :
    AgreeUnless array.IsBeyond (array.load address) (reserved.load address) := by
  have bound : address.toNat < reserved.store.size := mirrors.whole ▸ address.toNat_lt
  by_cases within : address.toNat < array.store.size
  · rw [load_of_lt within, load_of_lt bound, mirrors.bytes]
    exact .refl ..
  · have beyond := Nat.not_lt.mp within
    exact .inr ⟨_, load_of_le beyond, address, rfl, beyond⟩

theorem loadEach (mirrors : Mirrors array reserved) (count : Nat) (address : UInt32) :
    AgreeUnless array.IsBeyond (array.loadEach count address) (reserved.loadEach count address) := by
  induction count generalizing address with
  | zero => exact .refl ..
  | succ count ih =>
    exact (mirrors.load address).bind fun byte => (ih (address + 1)).bind fun rest => .refl ..

theorem read (mirrors : Mirrors array reserved) (address : UInt32) :
    AgreeUnless array.IsBeyond (array.read address 4 .ds) (reserved.read address 4 .ds) := by
  rw [read_word, read_word]
  exact (mirrors.loadEach 4 address).map _

/-- Beyond the end of the array nothing is mapped and the whole memory is zero. -/
theorem of_isBeyond (mirrors : Mirrors array reserved) {error : MemoryError}
    (beyond : array.IsBeyond error) :
    ∃ fault, error = .fault fault ∧ (∀ mapping ∈ array.mappings, mapping.last < fault) ∧
      reserved.load fault = .ok 0 := by
  obtain ⟨fault, rfl, beyond⟩ := beyond
  refine ⟨fault, rfl, ?_, ?_⟩
  · intro mapping member
    exact UInt32.lt_iff_toNat_lt.mpr (Nat.lt_of_lt_of_le (mirrors.covers mapping member) beyond)
  · have bound : fault.toNat < reserved.store.size := mirrors.whole ▸ fault.toNat_lt
    rw [load_of_lt bound, ← mirrors.bytes, ByteStore.padded_of_le beyond]

end Mirrors

end Memory

/-- The same calls on an empty array and on a memory of zeros that covers the address space have the
same results and lead to the same mappings. An expression then has the same outcome over both,
unless over the array it ends with a memory error; that is a fault at an address after all mapped
ones, at which the other memory holds a zero. -/
theorem array_agrees_with_reserved (calls : List MappingCall) (environment : Environment)
    (expression : String) :
    let array := ((Memory.array #[]).performAll calls).2
    let reserved := (Memory.reserved.performAll calls).2
    let overArray := Environment.evaluate { environment with memory := array.read } expression
    let overReserved :=
      Environment.evaluate { environment with memory := reserved.read } expression
    ((Memory.array #[]).performAll calls).1 = (Memory.reserved.performAll calls).1 ∧
      array.mappings = reserved.mappings ∧
      ((∀ address cause, overArray ≠ .error (.memory address cause)) →
        overReserved = overArray) ∧
      ∀ address cause, overArray = .error (.memory address cause) →
        ∃ fault, cause = .fault fault ∧ (∀ mapping ∈ array.mappings, mapping.last < fault) ∧
          reserved.load fault = .ok 0 := by
  intro array reserved overArray overReserved
  obtain ⟨results, mirrors⟩ := Memory.Mirrors.initial.performAll calls
  refine ⟨results, mirrors.mappings, ?_, ?_⟩
  · intro noMemoryError
    rcases environment.evaluate_agreeUnless mirrors.read expression with
      same | ⟨_, failed, address, cause, rfl, -⟩
    · exact same.symm
    · exact absurd failed (noMemoryError address cause)
  · intro address cause failed
    exact mirrors.of_isBeyond (Memory.read_isBeyond (Environment.memory_of_evaluate failed))

/-- Four bytes from 0x1000 on are read as a word. A word from 0x1002 on is a fault of the array at
0x1004, where the whole memory has a zero. -/
theorem array_agrees_with_reserved_of_four_bytes :
    let calls : List MappingCall := [.image 0x1000 #[0x78, 0x56, 0x34, 0x12] "image"]
    let environment : Environment :=
      ⟨fun _ => none, fun address _ _ => .error (.fault address), fun _ => none, false⟩
    let array := ((Memory.array #[]).performAll calls).2
    let reserved := (Memory.reserved.performAll calls).2
    let overArray := { environment with memory := array.read }
    let overReserved := { environment with memory := reserved.read }
    overArray.evaluate "*0x1000" = .ok 0x12345678 ∧
      overReserved.evaluate "*0x1000" = .ok 0x12345678 ∧
      overArray.evaluate "*(0x1000+2)" = .error (.memory 0x1002 (.fault 0x1004)) ∧
      reserved.load 0x1004 = .ok 0 := by
  intro calls environment array reserved overArray overReserved
  have value : overArray.evaluate "*0x1000" = .ok 0x12345678 := by decide +kernel
  have fault : overArray.evaluate "*(0x1000+2)" = .error (.memory 0x1002 (.fault 0x1004)) := by
    decide +kernel
  obtain ⟨-, -, same, -⟩ := array_agrees_with_reserved calls environment "*0x1000"
  obtain ⟨-, -, -, beyond⟩ := array_agrees_with_reserved calls environment "*(0x1000+2)"
  have noMemoryError : ∀ address cause,
      overArray.evaluate "*0x1000" ≠ .error (.memory address cause) := by simp [value]
  obtain ⟨_, ⟨⟩, -, zero⟩ := beyond _ _ fault
  exact ⟨value, (same noMemoryError).trans value, fault, zero⟩

end GuestProbe
