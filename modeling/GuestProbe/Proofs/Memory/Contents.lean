import GuestProbe.Proofs.Memory.Mapping
import GuestProbe.Proofs.Memory.Reading

/-! # What a memory holds

A call that succeeds writes the addresses of its mapping and no others (`Memory.padded_extended`).
The mappings of a memory are disjoint, so a mapped byte stays as it is under every later call
(`Memory.Separated.performAll_of_mem`). So after a sequence of calls a mapped address has its byte
from the one call that mapped it, and every other address has the byte that it had before, as far as
the block reached then; where the block has grown since, it has a zero (`loads_after_mappings`).
-/

namespace GuestProbe

/-- The byte at an address, which is zero beyond the end of the block. -/
def ByteStore.padded (store : ByteStore) (address : Nat) : UInt8 :=
  (store.get? address).getD 0

theorem ByteStore.size_growTo (store : ByteStore) (size : Nat) :
    (store.growTo size).size = max store.size size := by
  unfold growTo resize
  split
  · next shorter => simp [Nat.max_eq_right (Nat.le_of_lt shorter)]
  · next longer => simp [Nat.max_eq_left (Nat.not_lt.mp longer)]

theorem ByteStore.padded_growTo (store : ByteStore) (size address : Nat) :
    (store.growTo size).padded address = store.padded address := by
  unfold padded growTo
  split
  · next shorter =>
    rw [get?_resize]
    by_cases old : address < store.size
    · rw [if_pos (by omega), if_pos old]
    · rw [(get?_eq_none_iff store address).mpr (Nat.not_lt.mp old), if_neg old]
      by_cases new : address < size
      · rw [if_pos new]; rfl
      · rw [if_neg new]
  · rfl

theorem ByteStore.padded_of_le {store : ByteStore} {address : Nat}
    (beyond : store.size ≤ address) : store.padded address = 0 := by
  rw [padded, (get?_eq_none_iff store address).mpr beyond]
  rfl

namespace Memory

variable {memory : Memory} {mapping : Mapping} {address : UInt32}

/-! ## Loads -/

theorem load_of_lt {memory : Memory} {address : UInt32}
    (within : address.toNat < memory.store.size) :
    memory.load address = .ok (memory.store.padded address.toNat) := by
  rw [load_eq, if_pos within, ByteStore.padded, ByteStore.get?, if_pos within]
  rfl

theorem load_of_le {memory : Memory} {address : UInt32}
    (beyond : memory.store.size ≤ address.toNat) : memory.load address = .error (.fault address) := by
  rw [load_eq, if_neg (Nat.not_lt.mpr beyond)]

theorem padded_array (initial : Array UInt8) (address : Nat) :
    (array initial).store.padded address = initial.getD address 0 := by
  rw [array, ByteStore.padded, ByteStore.get?_ofBytes, Array.getD_eq_getD_getElem?]

theorem padded_reserved (address : Nat) : reserved.store.padded address = 0 := by
  rw [reserved, ByteStore.padded, ByteStore.get?_zeros]
  split <;> rfl

/-! ## One call -/

theorem size_extended (memory : Memory) (call : MappingCall) :
    (memory.extended call).store.size = max memory.store.size (call.mapping.last.toNat + 1) :=
  memory.store.size_growTo _

/-- The block of an array grows until it holds the last address of the mapping. -/
theorem length?_extended (memory : Memory) (call : MappingCall) :
    (memory.extended call).length? =
      memory.length?.map (max · (call.mapping.last.toNat + 1)) := by
  have same : (memory.extended call).backing = memory.backing := rfl
  rw [length?, length?, same, memory.size_extended call]
  cases memory.backing <;> rfl

/-- A call that succeeds writes the addresses of its mapping and no others. -/
theorem padded_extended (memory : Memory) (call : MappingCall) (address : Nat) :
    (memory.extended call).store.padded address =
      if call.mapping.first.toNat ≤ address ∧ address ≤ call.mapping.last.toNat then
        call.data.getD (address - call.mapping.first.toNat) 0
      else memory.store.padded address := by
  have size := memory.store.size_growTo (call.mapping.last.toNat + 1)
  rw [ByteStore.padded, extended, ByteStore.get?_fill, size]
  by_cases inside : call.mapping.first.toNat ≤ address ∧ address ≤ call.mapping.last.toNat
  · rw [if_pos inside, if_pos (by omega)]
    rfl
  · rw [if_neg inside, if_neg (by omega)]
    exact memory.store.padded_growTo ..

theorem padded_extended_of_contains (memory : Memory) {call : MappingCall}
    (contained : call.mapping.contains address = true) :
    (memory.extended call).store.padded address.toNat =
      call.data.getD (address.toNat - call.mapping.first.toNat) 0 := by
  rw [padded_extended, if_pos]
  simpa only [Mapping.contains_iff, UInt32.le_iff_toNat_le] using contained

theorem padded_extended_of_not_contains (memory : Memory) {call : MappingCall}
    (outside : call.mapping.contains address = false) :
    (memory.extended call).store.padded address.toNat = memory.store.padded address.toNat := by
  rw [padded_extended, if_neg]
  rw [← UInt32.le_iff_toNat_le, ← UInt32.le_iff_toNat_le, ← Mapping.contains_iff, outside]
  exact Bool.false_ne_true

theorem load_extended_of_contains (memory : Memory) {call : MappingCall}
    (contained : call.mapping.contains address = true) :
    (memory.extended call).load address =
      .ok (call.data.getD (address.toNat - call.mapping.first.toNat) 0) := by
  have reached := UInt32.le_iff_toNat_le.mp ((Mapping.contains_iff ..).mp contained).2
  have within : address.toNat < (memory.extended call).store.size := by
    rw [size_extended]
    omega
  rw [load_of_lt within, memory.padded_extended_of_contains contained]

/-- An address outside the mapping of a call keeps its byte, which is zero where there was none. -/
theorem load_extended_of_not_contains (memory : Memory) {call : MappingCall}
    (outside : call.mapping.contains address = false) :
    (memory.extended call).load address =
      if address.toNat < (memory.extended call).store.size then
        .ok (memory.store.padded address.toNat)
      else .error (.fault address) := by
  by_cases within : address.toNat < (memory.extended call).store.size
  · rw [if_pos within, load_of_lt within, memory.padded_extended_of_not_contains outside]
  · rw [if_neg within, load_of_le (Nat.not_lt.mp within)]

theorem load_extended_of_ok {memory : Memory} {call : MappingCall} {byte : UInt8}
    (outside : call.mapping.contains address = false) (loaded : memory.load address = .ok byte) :
    (memory.extended call).load address = .ok byte := by
  have within : address.toNat < memory.store.size := by
    by_contra beyond
    rw [load_of_le (Nat.not_lt.mp beyond)] at loaded
    cases loaded
  rw [load_of_lt within] at loaded
  have size := memory.size_extended call
  rw [load_extended_of_not_contains memory outside, if_pos (by omega), loaded]

/-- A call either fails and changes nothing, or extends the memory. -/
theorem perform_eq (memory : Memory) (call : MappingCall) :
    (∃ error, memory.perform call = (.error error, memory)) ∨
      memory.perform call = (.ok (), memory.extended call) := by
  by_cases asks : call.IsEmpty
  · exact .inl ⟨_, perform_of_isEmpty memory asks⟩
  cases found : memory.mappings.find? (·.overlaps call.mapping.first call.mapping.last) with
  | some mapping => exact .inl ⟨_, by rw [memory.perform_of_not_isEmpty asks, found]⟩
  | none => exact .inr (perform_of_free asks found)

/-- A call keeps every mapping and the byte at every mapped address. -/
theorem Separated.perform_of_mem (separated : memory.Separated) (member : mapping ∈ memory.mappings)
    (contained : mapping.contains address = true) (call : MappingCall) :
    mapping ∈ (memory.perform call).2.mappings ∧
      (memory.perform call).2.store.padded address.toNat = memory.store.padded address.toNat := by
  rcases separated.perform_cases call with
    ⟨-, performed⟩ | ⟨-, _, _, _, -, -, -, performed⟩ | ⟨-, apart, performed⟩
  · rw [performed]
    exact ⟨member, rfl⟩
  · rw [performed]
    exact ⟨member, rfl⟩
  · rw [performed]
    refine ⟨List.mem_append_left _ member, padded_extended_of_not_contains memory ?_⟩
    rw [← Bool.not_eq_true]
    exact fun held => apart mapping member ⟨address, contained, held⟩

/-! ## Runs -/

/-- The calls that succeeded. -/
def succeeded (calls : List MappingCall) (results : List (Except MappingError Unit)) :
    List MappingCall :=
  (calls.zip results).filterMap fun (call, result) =>
    match result with
    | .ok () => some call
    | .error _ => none

theorem accepted_eq_map (calls : List MappingCall) (results : List (Except MappingError Unit)) :
    accepted calls results = (succeeded calls results).map MappingCall.mapping := by
  rw [accepted, succeeded, List.map_filterMap]
  congr 1
  funext entry
  cases entry with
  | mk call result => cases result <;> rfl

theorem succeeded_cons_ok (call : MappingCall) (calls : List MappingCall)
    (results : List (Except MappingError Unit)) :
    succeeded (call :: calls) (.ok () :: results) = call :: succeeded calls results := rfl

/-- The length of a block that has been made long enough for the mappings of some calls. -/
def lengthAfter (length : Nat) (mapped : List MappingCall) : Nat :=
  (mapped.map fun call => call.mapping.last.toNat + 1).foldl max length

theorem lengthAfter_cons (length : Nat) (call : MappingCall) (mapped : List MappingCall) :
    lengthAfter length (call :: mapped) =
      lengthAfter (max length (call.mapping.last.toNat + 1)) mapped := rfl

theorem le_lengthAfter (length : Nat) (mapped : List MappingCall) :
    length ≤ lengthAfter length mapped := by
  induction mapped generalizing length with
  | nil => exact Nat.le_refl _
  | cons call rest ih => exact Nat.le_trans (Nat.le_max_left ..) (ih _)

theorem lt_lengthAfter (length : Nat) {mapped : List MappingCall} {call : MappingCall}
    (member : call ∈ mapped) : call.mapping.last.toNat < lengthAfter length mapped := by
  induction mapped generalizing length with
  | nil => cases member
  | cons first rest ih =>
    rw [lengthAfter_cons]
    rcases List.mem_cons.mp member with rfl | later
    · exact Nat.lt_of_lt_of_le (Nat.le_max_right ..) (le_lengthAfter _ rest)
    · exact ih _ later

theorem backing_performAll (memory : Memory) (calls : List MappingCall) :
    (memory.performAll calls).2.backing = memory.backing := by
  induction calls generalizing memory with
  | nil => rfl
  | cons call rest ih =>
    simp only [Memory.performAll]
    rcases memory.perform_eq call with ⟨error, performed⟩ | performed
    · rw [performed]
      exact ih memory
    · rw [performed]
      exact ih (memory.extended call)

theorem size_performAll (memory : Memory) (calls : List MappingCall) :
    (memory.performAll calls).2.store.size =
      lengthAfter memory.store.size (succeeded calls (memory.performAll calls).1) := by
  induction calls generalizing memory with
  | nil => rfl
  | cons call rest ih =>
    simp only [Memory.performAll]
    rcases memory.perform_eq call with ⟨error, performed⟩ | performed
    · rw [performed]
      exact ih memory
    · rw [performed, succeeded_cons_ok, lengthAfter_cons, ← size_extended]
      exact ih (memory.extended call)

/-- Calls keep the byte at every address that was mapped before. -/
theorem Separated.performAll_of_mem (separated : memory.Separated)
    (member : mapping ∈ memory.mappings) (contained : mapping.contains address = true)
    (calls : List MappingCall) :
    (memory.performAll calls).2.store.padded address.toNat = memory.store.padded address.toNat := by
  induction calls generalizing memory with
  | nil => rfl
  | cons call rest ih =>
    obtain ⟨stays, same⟩ := separated.perform_of_mem member contained call
    exact (ih (separated.perform call) stays).trans same

/-- A mapped address has its byte from the call that mapped it. -/
theorem Separated.padded_of_mem_succeeded (separated : memory.Separated)
    {calls : List MappingCall} {call : MappingCall}
    (done : call ∈ succeeded calls (memory.performAll calls).1)
    (contained : call.mapping.contains address = true) :
    (memory.performAll calls).2.store.padded address.toNat =
      call.data.getD (address.toNat - call.mapping.first.toNat) 0 := by
  induction calls generalizing memory with
  | nil => cases done
  | cons first rest ih =>
    have separatedNext := separated.perform first
    simp only [Memory.performAll] at done ⊢
    rcases memory.perform_eq first with ⟨error, performed⟩ | performed
    · rw [performed] at done ⊢
      exact ih separated done
    · rw [performed] at done separatedNext ⊢
      rcases List.mem_cons.mp done with rfl | later
      · have mapped : call.mapping ∈ (memory.extended call).mappings :=
          List.mem_append_right _ (List.mem_singleton.mpr rfl)
        rw [separatedNext.performAll_of_mem mapped contained rest]
        exact memory.padded_extended_of_contains contained
      · exact ih separatedNext later

/-- An address that no call maps keeps its byte. -/
theorem padded_of_not_mapped (memory : Memory) {calls : List MappingCall}
    (unmapped : ∀ call ∈ succeeded calls (memory.performAll calls).1,
      call.mapping.contains address = false) :
    (memory.performAll calls).2.store.padded address.toNat = memory.store.padded address.toNat := by
  induction calls generalizing memory with
  | nil => rfl
  | cons first rest ih =>
    simp only [Memory.performAll] at unmapped ⊢
    rcases memory.perform_eq first with ⟨error, performed⟩ | performed
    · rw [performed] at unmapped ⊢
      exact ih memory unmapped
    · rw [performed, succeeded_cons_ok] at unmapped
      rw [performed]
      obtain ⟨outside, unmappedLater⟩ := List.forall_mem_cons.mp unmapped
      rw [ih (memory.extended first) unmappedLater]
      exact memory.padded_extended_of_not_contains outside

/-- Calls for other addresses keep the byte that an address has. -/
theorem load_performAll_of_ok {memory : Memory} {byte : UInt8} {calls : List MappingCall}
    (outside : ∀ call ∈ calls, call.mapping.contains address = false)
    (loaded : memory.load address = .ok byte) :
    (memory.performAll calls).2.load address = .ok byte := by
  induction calls generalizing memory with
  | nil => exact loaded
  | cons call rest ih =>
    obtain ⟨outsideFirst, outsideRest⟩ := List.forall_mem_cons.mp outside
    simp only [Memory.performAll]
    rcases memory.perform_eq call with ⟨error, performed⟩ | performed
    · rw [performed]
      exact ih outsideRest loaded
    · rw [performed]
      exact ih outsideRest (load_extended_of_ok outsideFirst loaded)

/-! ## Loads after calls -/

/-- The memory has the mappings of some calls, gives their data at the addresses that they mapped,
with zeros after the end of the data, and answers at every other address as the given loads do. -/
structure Holds (memory : Memory) (mapped : List MappingCall)
    (unmapped : UInt32 → Except MemoryError UInt8) : Prop where
  mappings : memory.mappings = mapped.map MappingCall.mapping
  load_mapped : ∀ call ∈ mapped, ∀ address, call.mapping.contains address = true →
    memory.load address = .ok (call.data.getD (address.toNat - call.mapping.first.toNat) 0)
  load_unmapped : ∀ address, (∀ call ∈ mapped, call.mapping.contains address = false) →
    memory.load address = unmapped address

/-- After calls on a memory without mappings, an address that no call mapped has the byte that it
had before, as far as the block reaches now. -/
theorem holds_performAll (memory : Memory) (bare : memory.mappings = []) (calls : List MappingCall) :
    let after := memory.performAll calls
    let mapped := succeeded calls after.1
    after.2.Holds mapped fun address =>
      if address.toNat < lengthAfter memory.store.size mapped then
        .ok (memory.store.padded address.toNat)
      else .error (.fault address) := by
  intro after mapped
  have separated := separated_of_bare bare
  have size : after.2.store.size = lengthAfter memory.store.size mapped :=
    memory.size_performAll calls
  constructor
  case mappings =>
    rw [(separated.performAll calls).2, bare, List.nil_append, accepted_eq_map]
  case load_mapped =>
    intro call done address contained
    have reached : address ≤ call.mapping.last := ((Mapping.contains_iff ..).mp contained).2
    have within : address.toNat < after.2.store.size := by
      rw [size]
      exact Nat.lt_of_le_of_lt (UInt32.le_iff_toNat_le.mp reached) (lt_lengthAfter _ done)
    rw [load_of_lt within, separated.padded_of_mem_succeeded done contained]
  case load_unmapped =>
    intro address outside
    rw [← size]
    by_cases within : address.toNat < after.2.store.size
    · rw [if_pos within, load_of_lt within, memory.padded_of_not_mapped outside]
    · rw [if_neg within, load_of_le (Nat.not_lt.mp within)]

theorem Holds.congr {mapped : List MappingCall}
    {unmapped others : UInt32 → Except MemoryError UInt8} (holds : memory.Holds mapped unmapped)
    (same : ∀ address, unmapped address = others address) : memory.Holds mapped others :=
  funext same ▸ holds

end Memory

/-- After any calls on an array, the block is as long as the initial bytes and every mapping need.
An address that some call mapped loads its byte from the data of this call, or a zero after the end
of the data. Any other address loads its initial byte if there is one, a zero if the block has grown
over it, and is a fault otherwise. A memory that covers the address space answers in the same way,
with zeros for the initial bytes, and has no faults. -/
theorem loads_after_mappings (initial : Array UInt8) (calls : List MappingCall) :
    let array := (Memory.array initial).performAll calls
    let mapped := Memory.succeeded calls array.1
    let length := Memory.lengthAfter initial.size mapped
    let reserved := Memory.reserved.performAll calls
    array.2.length? = some length ∧
      (array.2.Holds mapped fun address =>
        if address.toNat < initial.size then .ok (initial.getD address.toNat 0)
        else if address.toNat < length then .ok 0
        else .error (.fault address)) ∧
      reserved.2.Holds (Memory.succeeded calls reserved.1) fun _ => .ok 0 := by
  intro array mapped length reserved
  have size : array.2.store.size = length := (Memory.array initial).size_performAll calls
  have backing : array.2.backing = .array := (Memory.array initial).backing_performAll calls
  refine ⟨?_, ?_, ?_⟩
  · rw [Memory.length?, backing, size]
  · refine ((Memory.array initial).holds_performAll rfl calls).congr fun address => ?_
    have grown : initial.size ≤ length := Memory.le_lengthAfter ..
    change (if address.toNat < length then _ else _) = _
    rw [Memory.padded_array]
    by_cases old : address.toNat < initial.size
    · rw [if_pos old, if_pos (Nat.lt_of_lt_of_le old grown)]
    · rw [if_neg old, Array.getD_eq_getD_getElem?, Array.getElem?_eq_none (Nat.not_lt.mp old)]
      rfl
  · refine (Memory.reserved.holds_performAll rfl calls).congr fun address => ?_
    have within : address.toNat < Memory.lengthAfter Memory.reserved.store.size
        (Memory.succeeded calls reserved.1) :=
      Nat.lt_of_lt_of_le address.toNat_lt (Memory.le_lengthAfter addressSpace _)
    rw [if_pos within, Memory.padded_reserved]

/-- Three bytes at the start, of which the first mapping takes the last; it has one byte of its own.
The second call is refused and changes nothing, and the third has more data than it can hold. -/
theorem loads_after_mappings_of_three :
    let calls : List MappingCall :=
      [.range 2 5 #[9] "first", .range 4 8 #[7, 7] "refused", .range 0x10 0x11 #[1, 2, 3] "last"]
    let array := ((Memory.array #[5, 6, 7]).performAll calls).2
    let reserved := (Memory.reserved.performAll calls).2
    array.length? = some 0x12 ∧ array.load 1 = .ok 6 ∧ array.load 2 = .ok 9 ∧
      array.load 4 = .ok 0 ∧ array.load 6 = .ok 0 ∧ array.load 0x11 = .ok 2 ∧
      array.load 0x12 = .error (.fault 0x12) ∧ reserved.load 2 = .ok 9 ∧
      reserved.load 0x12 = .ok 0 := by
  intro calls array reserved
  obtain ⟨length, holds, holdsReserved⟩ := loads_after_mappings #[5, 6, 7] calls
  have bothDone : Memory.succeeded calls ((Memory.array #[5, 6, 7]).performAll calls).1 =
      [.range 2 5 #[9] "first", .range 0x10 0x11 #[1, 2, 3] "last"] := rfl
  have first := holds.load_mapped (.range 2 5 #[9] "first") (by simp [bothDone])
  have last := holds.load_mapped (.range 0x10 0x11 #[1, 2, 3] "last") (by simp [bothDone])
  have firstReserved := holdsReserved.load_mapped (.range 2 5 #[9] "first") List.mem_cons_self
  exact ⟨length, holds.load_unmapped 1 (by decide), first 2 rfl, first 4 rfl,
    holds.load_unmapped 6 (by decide), last 0x11 rfl, holds.load_unmapped 0x12 (by decide),
    firstReserved 2 rfl, holdsReserved.load_unmapped 0x12 (by decide)⟩

end GuestProbe
