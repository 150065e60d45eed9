import GuestProbe.Memory.Basic
import Mathlib.Algebra.BigOperators.Fin

/-! # Reading byte by byte

A reserved memory reads bytes that lie in one piece at once, and all others one at a time. Both ways
read the same (`Memory.loadBytes_eq_loadEach`). An array shifts and joins the bytes, which gives the
number that they form (`Memory.joinBytes_eq`). So every read is decided by the loads of its bytes,
of which the first that fails gives the error (`Memory.loadEach_eq_error_iff`), and the number is a
sum over the places of the bytes.
-/

namespace GuestProbe

section Outcomes

variable {Failure Value Result : Type} {outcome : Except Failure Value} {change : Value → Result}

theorem map_eq_ok_iff {result : Result} :
    outcome.map change = .ok result ↔ ∃ value, outcome = .ok value ∧ change value = result := by
  cases outcome <;> simp [Except.map]

theorem map_eq_error_iff {failure : Failure} :
    outcome.map change = .error failure ↔ outcome = .error failure := by
  cases outcome <;> simp [Except.map]

end Outcomes

namespace Memory

theorem load_eq (memory : Memory) (address : UInt32) :
    memory.load address =
      if address.toNat < memory.store.size then
        .ok (ByteStore.newest memory.store.filled address.toNat)
      else .error (.fault address) := by
  rw [load, ByteStore.get?]
  by_cases within : address.toNat < memory.store.size
  · rw [if_pos within, if_pos within]
  · rw [if_neg within, if_neg within]

/-- One byte after another, without a wrap to the first address. -/
theorem loadEach_of_within (memory : Memory) (count : Nat) (address : UInt32)
    (within : address.toNat + count ≤ memory.store.size)
    (straight : address.toNat + count ≤ addressSpace) :
    memory.loadEach count address =
      .ok ((List.range' address.toNat count).map (ByteStore.newest memory.store.filled)) := by
  induction count generalizing address with
  | zero => rfl
  | succ count ih =>
    rw [loadEach, load_eq, if_pos (by omega)]
    cases count with
    | zero => rfl
    | succ count =>
      have next : (address + 1).toNat = address.toNat + 1 := by
        rw [UInt32.toNat_add, UInt32.toNat_one]
        exact Nat.mod_eq_of_lt (Nat.lt_of_lt_of_le (by omega) straight)
      have rest := ih (address + 1) (by omega) (by omega)
      rw [next] at rest
      rw [rest, List.range'_succ, List.map_cons]
      rfl

theorem loadBytes_eq_loadEach (memory : Memory) (count : Nat) (address : UInt32) :
    memory.loadBytes count address = memory.loadEach count address := by
  rw [loadBytes]
  cases piece : memory.piece? count address with
  | none => rfl
  | some bytes =>
    simp only [piece?, Option.ite_none_right_eq_some] at piece
    obtain ⟨straight, slice⟩ := piece
    obtain ⟨within, rfl⟩ := (ByteStore.slice?_eq_some_iff ..).mp slice
    exact (memory.loadEach_of_within count address within straight).symm

/-- A byte that is shifted to a place below a number goes into it without a carry. -/
theorem shiftLeft_or_shiftLeft (higher : Nat) (byte : UInt8) (place : Nat) :
    higher <<< (8 * (place + 1)) ||| byte.toNat <<< (8 * place) =
      (byte.toNat + 256 * higher) <<< (8 * place) := by
  have low : byte.toNat <<< (8 * place) < 2 ^ (8 * (place + 1)) := by
    rw [Nat.shiftLeft_eq, Nat.mul_succ, Nat.pow_add, Nat.mul_comm]
    exact Nat.mul_lt_mul_of_pos_left byte.toNat_lt (Nat.two_pow_pos _)
  rw [← Nat.shiftLeft_add_eq_or_of_lt low, Nat.shiftLeft_eq, Nat.shiftLeft_eq, Nat.shiftLeft_eq,
    Nat.mul_succ, Nat.pow_add, Nat.add_mul, Nat.add_comm, Nat.mul_comm 256, Nat.mul_assoc,
    Nat.mul_comm 256]

theorem setWidth_shiftLeft (bits : Nat) (byte : UInt8) (shift : Nat) :
    byte.toBitVec.setWidth bits <<< shift = BitVec.ofNat bits (byte.toNat <<< shift) := by
  apply BitVec.eq_of_toNat_eq
  rw [BitVec.toNat_shiftLeft, BitVec.toNat_setWidth, BitVec.toNat_ofNat, Nat.shiftLeft_eq,
    Nat.shiftLeft_eq, Nat.mod_mul_mod]
  rfl

/-- Joined bytes are the number that they form, moved to the place of the first. -/
theorem joinBytes_eq (bits place : Nat) (bytes : List UInt8) :
    joinBytes bits place bytes = BitVec.ofNat bits (littleEndian bytes <<< (8 * place)) := by
  induction bytes generalizing place with
  | nil => simp [joinBytes, littleEndian]
  | cons byte higher ih =>
    rw [joinBytes, ih, setWidth_shiftLeft, ← BitVec.ofNat_or, shiftLeft_or_shiftLeft]
    rfl

/-- The bits at an address are those of the number that its bytes form, in every memory. -/
theorem loadBits_eq (memory : Memory) (width : Width) (address : UInt32) :
    memory.loadBits width address =
      (memory.loadEach width.bytes address).map fun bytes =>
        BitVec.ofNat width.bits (littleEndian bytes) := by
  have joined : joinBytes width.bits 0 = fun bytes =>
      BitVec.ofNat width.bits (littleEndian bytes) :=
    funext fun bytes => joinBytes_eq width.bits 0 bytes
  rw [loadBits, loadBytes_eq_loadEach, joined]
  cases memory.backing <;> rfl

/-- A read through a flat segment extends the bits at the address. -/
theorem read_eq (memory : Memory) (address : UInt32) (width : Width) {segment : Segment}
    (flat : segment.isFlat = true) :
    memory.read address width.bytes segment =
      (memory.loadBits width address).map fun bits => UInt32.ofBitVec (bits.setWidth 32) := by
  have known : Width.ofBytes? width.bytes = some width := (Width.ofBytes?_eq_some_iff ..).mpr rfl
  rw [read, if_pos flat, known]

/-- A word is read in four loads. -/
theorem read_word (memory : Memory) (address : UInt32) :
    memory.read address 4 .ds =
      (memory.loadEach 4 address).map fun bytes =>
        UInt32.ofBitVec ((BitVec.ofNat 32 (littleEndian bytes)).setWidth 32) := by
  have flat : Segment.ds.isFlat = true := rfl
  refine (memory.read_eq address .bits32 flat).trans ?_
  rw [loadBits_eq, Width.bytes]
  cases memory.loadEach 4 address <;> rfl

/-! ## The loads of a read -/

/-- A load fails with a fault at its address. -/
theorem load_eq_error_iff (memory : Memory) (address : UInt32) (error : MemoryError) :
    memory.load address = .error error ↔
      (∀ byte, memory.load address ≠ .ok byte) ∧ error = .fault address := by
  rw [load_eq]
  by_cases within : address.toNat < memory.store.size
  · simp [within]
  · simp [within, eq_comm]

theorem load_add_zero (memory : Memory) (address : UInt32) :
    memory.load (address + UInt32.ofNat 0) = memory.load address :=
  congrArg memory.load (UInt32.add_zero address)

theorem load_add_succ (memory : Memory) (address : UInt32) (index : Nat) :
    memory.load (address + UInt32.ofNat (index + 1)) =
      memory.load (address + 1 + UInt32.ofNat index) := by
  rw [Nat.add_comm, UInt32.ofNat_add, ← UInt32.add_assoc]
  rfl

theorem loadEach_succ_of_ok {memory : Memory} {address : UInt32} {byte : UInt8}
    (loaded : memory.load address = .ok byte) (count : Nat) :
    memory.loadEach (count + 1) address =
      (memory.loadEach count (address + 1)).map (byte :: ·) := by
  rw [loadEach, loaded]
  cases memory.loadEach count (address + 1) <;> rfl

theorem loadEach_succ_of_error {memory : Memory} {address : UInt32} {error : MemoryError}
    (failed : memory.load address = .error error) (count : Nat) :
    memory.loadEach (count + 1) address = .error error := by
  rw [loadEach, failed]
  rfl

/-- Bytes are read when each of them is loaded. -/
theorem loadEach_eq_ok_iff (memory : Memory) (count : Nat) (address : UInt32)
    (loaded : List UInt8) :
    memory.loadEach count address = .ok loaded ↔
      ∃ bytes : Fin count → UInt8, loaded = List.ofFn bytes ∧
        ∀ index : Fin count, memory.load (address + UInt32.ofNat index) = .ok (bytes index) := by
  induction count generalizing address loaded with
  | zero =>
    constructor
    · intro done
      cases done
      exact ⟨Fin.elim0, rfl, fun index => index.elim0⟩
    · rintro ⟨bytes, rfl, -⟩
      rfl
  | succ count ih =>
    constructor
    · intro done
      cases first : memory.load address with
      | error error =>
        rw [loadEach_succ_of_error first] at done
        cases done
      | ok byte =>
        rw [loadEach_succ_of_ok first] at done
        obtain ⟨rest, later, rfl⟩ := map_eq_ok_iff.mp done
        obtain ⟨bytes, rfl, each⟩ := (ih (address + 1) rest).mp later
        refine ⟨Fin.cons byte bytes, (List.ofFn_cons byte bytes).symm, ?_⟩
        intro index
        cases index using Fin.cases with
        | zero => exact (memory.load_add_zero address).trans first
        | succ index => exact (memory.load_add_succ address index).trans (each index)
    · rintro ⟨bytes, rfl, each⟩
      have first : memory.load address = .ok (bytes 0) :=
        (memory.load_add_zero address).symm.trans (each 0)
      have later := (ih (address + 1) _).mpr ⟨fun index => bytes index.succ, rfl, fun index =>
        (memory.load_add_succ address index).symm.trans (each index.succ)⟩
      rw [loadEach_succ_of_ok first, later, List.ofFn_succ]
      rfl

/-- The first byte that is not loaded gives the error. -/
theorem loadEach_eq_error_iff (memory : Memory) (count : Nat) (address : UInt32)
    (error : MemoryError) :
    memory.loadEach count address = .error error ↔
      ∃ index < count, (∀ earlier < index, ∃ byte,
          memory.load (address + UInt32.ofNat earlier) = .ok byte) ∧
        memory.load (address + UInt32.ofNat index) = .error error := by
  induction count generalizing address with
  | zero => simp [loadEach]
  | succ count ih =>
    cases first : memory.load address with
    | error cause =>
      have start : memory.load (address + UInt32.ofNat 0) = .error cause :=
        (memory.load_add_zero address).trans first
      rw [loadEach_succ_of_error first]
      constructor
      · intro failed
        cases failed
        exact ⟨0, Nat.succ_pos _, fun _ below => absurd below (Nat.not_lt_zero _), start⟩
      · rintro ⟨index, -, before, failed⟩
        cases index with
        | zero =>
          rw [start] at failed
          cases failed
          rfl
        | succ index =>
          obtain ⟨byte, loaded⟩ := before 0 (Nat.succ_pos _)
          rw [start] at loaded
          cases loaded
    | ok byte =>
      have start : memory.load (address + UInt32.ofNat 0) = .ok byte :=
        (memory.load_add_zero address).trans first
      rw [loadEach_succ_of_ok first, map_eq_error_iff, ih]
      constructor
      · rintro ⟨index, inside, before, failed⟩
        refine ⟨index + 1, Nat.succ_lt_succ inside, ?_,
          (memory.load_add_succ address index).trans failed⟩
        intro earlier below
        cases earlier with
        | zero => exact ⟨byte, start⟩
        | succ earlier =>
          rw [load_add_succ]
          exact before earlier (Nat.lt_of_succ_lt_succ below)
      · rintro ⟨index, inside, before, failed⟩
        cases index with
        | zero =>
          rw [start] at failed
          cases failed
        | succ index =>
          refine ⟨index, Nat.lt_of_succ_lt_succ inside, ?_,
            (memory.load_add_succ address index).symm.trans failed⟩
          intro earlier below
          rw [← load_add_succ]
          exact before (earlier + 1) (Nat.succ_lt_succ below)

/-! ## Numbers -/

theorem littleEndian_ofFn {count : Nat} (bytes : Fin count → UInt8) :
    littleEndian (List.ofFn bytes) = ∑ index, (bytes index).toNat * 256 ^ index.val := by
  induction count with
  | zero => rfl
  | succ count ih =>
    rw [List.ofFn_succ, Fin.sum_univ_succ]
    change (bytes 0).toNat + 256 * littleEndian _ = _
    rw [ih fun index => bytes index.succ, Finset.mul_sum]
    congr 1
    · simp
    · apply Finset.sum_congr rfl
      intro index _
      rw [Fin.val_succ, Nat.pow_succ, Nat.mul_left_comm, Nat.mul_comm 256]

theorem littleEndian_lt (bytes : List UInt8) : littleEndian bytes < 256 ^ bytes.length := by
  induction bytes with
  | nil => decide
  | cons byte higher ih =>
    have := byte.toNat_lt
    change byte.toNat + 256 * littleEndian higher < 256 ^ (higher.length + 1)
    rw [Nat.pow_succ]
    omega

/-- The bits of little-endian bytes, of which none is lost. -/
theorem toNat_bits {width : Width} (bytes : Fin width.bytes → UInt8) :
    (BitVec.ofNat width.bits (littleEndian (List.ofFn bytes))).toNat =
      ∑ index, (bytes index).toNat * 256 ^ index.val := by
  have size : 2 ^ width.bits = 256 ^ width.bytes := Nat.pow_mul 2 8 width.bytes
  have bound := littleEndian_lt (List.ofFn bytes)
  rw [List.length_ofFn, ← size] at bound
  rw [BitVec.toNat_ofNat, Nat.mod_eq_of_lt bound, littleEndian_ofFn]

/-- The bits at an address are loaded when all of their bytes are. -/
theorem loadBits_eq_ok_iff (memory : Memory) (width : Width) (address : UInt32)
    (bits : BitVec width.bits) :
    memory.loadBits width address = .ok bits ↔
      ∃ bytes : Fin width.bytes → UInt8,
        (∀ index : Fin width.bytes,
          memory.load (address + UInt32.ofNat index) = .ok (bytes index)) ∧
        bits.toNat = ∑ index, (bytes index).toNat * 256 ^ index.val := by
  rw [loadBits_eq, map_eq_ok_iff]
  constructor
  · rintro ⟨loaded, done, rfl⟩
    obtain ⟨bytes, rfl, each⟩ := (memory.loadEach_eq_ok_iff ..).mp done
    exact ⟨bytes, each, toNat_bits bytes⟩
  · rintro ⟨bytes, each, value⟩
    refine ⟨List.ofFn bytes, (memory.loadEach_eq_ok_iff ..).mpr ⟨bytes, rfl, each⟩, ?_⟩
    exact BitVec.eq_of_toNat_eq ((toNat_bits bytes).trans value.symm)

/-- Bits fail to load with a fault at the first byte that cannot be loaded. -/
theorem loadBits_eq_error_iff (memory : Memory) (width : Width) (address : UInt32)
    (error : MemoryError) :
    memory.loadBits width address = .error error ↔
      ∃ index < width.bytes,
        (∀ earlier < index, ∃ byte,
          memory.load (address + UInt32.ofNat earlier) = .ok byte) ∧
        (∀ byte, memory.load (address + UInt32.ofNat index) ≠ .ok byte) ∧
        error = .fault (address + UInt32.ofNat index) := by
  rw [loadBits_eq, map_eq_error_iff, loadEach_eq_error_iff]
  simp only [load_eq_error_iff]

end Memory

end GuestProbe
