import GuestProbe.Proofs.Memory.Contents

/-! # Reachable memories

A memory starts as an array of any bytes or as zeros that cover the address space. Mapping calls
change it, those that are refused included, and the block of an array may be exchanged for any
other. None of this makes mappings meet (`Memory.Reachable.separated`), and a memory that covers the
address space always does, so that it has a byte at every address
(`Memory.Reachable.load_of_isReserved`).
-/

namespace GuestProbe

namespace Memory

variable {memory : Memory}

inductive Reachable : Memory → Prop where
  | array (initial : Array UInt8) : Reachable (.array initial)
  | reserved : Reachable .reserved
  | perform {memory : Memory} (before : Reachable memory) (call : MappingCall) :
      Reachable (memory.perform call).2
  /-- The block of an array is open to changes of its bytes and of its length. -/
  | exchange {memory : Memory} (before : Reachable memory) (isArray : memory.backing = .array)
      (store : ByteStore) : Reachable { memory with store }

theorem Reachable.performAll (reachable : memory.Reachable) (calls : List MappingCall) :
    (memory.performAll calls).2.Reachable := by
  induction calls generalizing memory with
  | nil => exact reachable
  | cons call rest ih => exact ih (reachable.perform call)

theorem Reachable.resize {changed : Memory} {length : Nat} {byte : UInt8}
    (reachable : memory.Reachable) (done : memory.resize? length byte = some changed) :
    changed.Reachable := by
  unfold resize? at done
  split at done
  · next isArray =>
    cases done
    exact reachable.exchange isArray _
  · cases done

theorem Reachable.separated (reachable : memory.Reachable) : memory.Separated := by
  induction reachable with
  | array initial => exact separated_of_bare rfl
  | reserved => exact separated_of_bare rfl
  | perform before call ih => exact ih.perform call
  | exchange before isArray store ih => exact ⟨ih.nonempty, ih.disjoint⟩

theorem Reachable.size_of_isReserved (reachable : memory.Reachable)
    (isReserved : memory.backing = .reserved) : memory.store.size = addressSpace := by
  induction reachable with
  | array initial => cases isReserved
  | reserved => rfl
  | @perform memory before call ih =>
    have whole : memory.backing = .reserved :=
      (memory.backing_performAll [call]).symm.trans isReserved
    rcases memory.perform_eq call with ⟨error, performed⟩ | performed
    · rw [performed]
      exact ih whole
    · have bound : call.mapping.last.toNat + 1 ≤ addressSpace := call.mapping.last.toNat_lt
      rw [performed, size_extended, ih whole, Nat.max_eq_left bound]
  | exchange before isArray store ih => cases isArray.symm.trans isReserved

theorem Reachable.load_of_isReserved (reachable : memory.Reachable)
    (isReserved : memory.backing = .reserved) (address : UInt32) :
    ∃ byte, memory.load address = .ok byte := by
  have within : address.toNat < memory.store.size :=
    reachable.size_of_isReserved isReserved ▸ address.toNat_lt
  exact ⟨_, load_of_lt within⟩

/-- All bytes of a memory that covers the address space lie in one piece, unless they wrap around
the end. -/
theorem Reachable.isSome_piece?_iff (reachable : memory.Reachable)
    (isReserved : memory.backing = .reserved) (count : Nat) (address : UInt32) :
    (memory.piece? count address).isSome = true ↔ address.toNat + count ≤ addressSpace := by
  rw [piece?, ByteStore.slice?, reachable.size_of_isReserved isReserved]
  by_cases straight : address.toNat + count ≤ addressSpace <;> simp [straight]

end Memory

end GuestProbe
