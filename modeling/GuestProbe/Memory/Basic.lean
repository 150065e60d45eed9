import GuestProbe.Memory.ByteStore
import GuestProbe.Memory.Error
import GuestProbe.Width

/-! # Guest memory

Guest memory is a block of bytes and a list of named mappings. An array memory is a block from
address 0 that grows with its mappings, and reading beyond it is a fault. A reserved memory covers
the whole address space of `2 ^ 32` bytes from the start and is zero where nothing is mapped.

Words are little-endian, and the bytes of a word follow each other modulo `2 ^ 32`. An array loads
them one at a time and joins them, so that a fault names the first missing byte. A reserved memory
reads a word in one piece unless it wraps around the end of the address space.
-/

namespace GuestProbe

/-- The number of addresses. -/
def addressSpace : Nat := UInt32.size

/-- A named range of addresses, which includes its last one. -/
structure Mapping where
  first : UInt32
  last : UInt32
  name : String
deriving DecidableEq, Repr

namespace Mapping

def contains (mapping : Mapping) (address : UInt32) : Bool :=
  mapping.first ≤ address && address ≤ mapping.last

/-- The mapping shares an address with a range. -/
def overlaps (mapping : Mapping) (first last : UInt32) : Bool :=
  mapping.first ≤ last && first ≤ mapping.last

/-- The eight uppercase hexadecimal digits of an address. -/
def addressText (address : UInt32) : String :=
  String.ofList ((Text.hexDigits 8 address).map Char.toUpper)

/-- The range and the name of a mapping. -/
def display (mapping : Mapping) : String :=
  addressText mapping.first ++ "-" ++ addressText mapping.last ++ " " ++ mapping.name

end Mapping

/-- How a memory gets its bytes. -/
inductive Backing where
  /-- A block that starts small and grows. -/
  | array
  /-- The whole address space. -/
  | reserved
deriving DecidableEq, Repr

structure Memory where
  backing : Backing
  store : ByteStore
  /-- The mappings, in the order in which they were added. -/
  mappings : List Mapping

namespace Memory

/-- A memory that holds the given bytes from address 0 on, without mappings. -/
def array (initial : Array UInt8) : Memory :=
  ⟨.array, .ofBytes initial, []⟩

/-- A memory of zeros that covers the address space, without mappings. -/
def reserved : Memory :=
  ⟨.reserved, .zeros addressSpace, []⟩

/-- Finds the mapping that holds an address. -/
def mappingAt? (memory : Memory) (address : UInt32) : Option Mapping :=
  memory.mappings.find? (·.contains address)

/-- Why a range cannot be mapped, if it cannot. -/
def mappingError? (mappings : List Mapping) (first last : UInt32) : Option MappingError :=
  if last < first then some .empty
  else (mappings.find? (·.overlaps first last)).map fun mapping => .overlap mapping.name

/-- A change of a memory in place. What was changed before a refusal stays changed. -/
abbrev Update := ExceptT MappingError (StateM Memory)

/-- Maps a range in place, unless it is refused: makes the block long enough, fills the range with
the data, pads it with zeros and lists the mapping. Data that does not fit is left out. -/
def mapRange (first last : UInt32) (data : Array UInt8) (name : String) : Update Unit := do
  let memory ← get
  match mappingError? memory.mappings first last with
  | some error => throw error
  | none =>
      modify fun memory => { memory with store := memory.store.growTo (last.toNat + 1) }
      modify fun memory => { memory with
        store := memory.store.fill first.toNat (last.toNat + 1 - first.toNat) data }
      modify fun memory => { memory with mappings := memory.mappings ++ [⟨first, last, name⟩] }

/-- The memory after a change, if the change is not refused. -/
def updated (memory : Memory) (update : Update Unit) : Except MappingError Memory :=
  match update.run.run memory with
  | (.ok (), changed) => .ok changed
  | (.error error, _) => .error error

/-- Maps a range. -/
def addMapping (memory : Memory) (first last : UInt32) (data : Array UInt8) (name : String) :
    Except MappingError Memory :=
  memory.updated (mapRange first last data name)

/-- The length of the block of an array memory. -/
def length? (memory : Memory) : Option Nat :=
  match memory.backing with
  | .array => some memory.store.size
  | .reserved => none

/-- Changes the length of the block of an array memory; new bytes get the given value. -/
def resize? (memory : Memory) (length : Nat) (byte : UInt8) : Option Memory :=
  match memory.backing with
  | .array => some { memory with store := memory.store.resize length byte }
  | .reserved => none

/-- The byte at an address. -/
def load (memory : Memory) (address : UInt32) : Except MemoryError UInt8 :=
  match memory.store.get? address.toNat with
  | some byte => .ok byte
  | none => .error (.fault address)

/-- Bytes from an address on, one at a time. -/
def loadEach (memory : Memory) : Nat → UInt32 → Except MemoryError (List UInt8)
  | 0, _ => .ok []
  | count + 1, address => do
      let byte ← memory.load address
      let rest ← memory.loadEach count (address + 1)
      pure (byte :: rest)

/-- Bytes from an address on that do not wrap around, if the block holds all of them. -/
def piece? (memory : Memory) (count : Nat) (address : UInt32) : Option (List UInt8) :=
  if address.toNat + count ≤ addressSpace then memory.store.slice? address.toNat count else none

/-- Bytes from an address on. -/
def loadBytes (memory : Memory) (count : Nat) (address : UInt32) :
    Except MemoryError (List UInt8) :=
  match memory.piece? count address with
  | some bytes => .ok bytes
  | none => memory.loadEach count address

/-- The number that bytes stand for, the lowest one first. -/
def littleEndian (bytes : List UInt8) : Nat :=
  bytes.foldr (fun byte higher => byte.toNat + 256 * higher) 0

/-- Bytes that are shifted to their places, the first of them to the given one, and joined. -/
def joinBytes (bits place : Nat) : List UInt8 → BitVec bits
  | [] => 0
  | byte :: higher =>
      joinBytes bits (place + 1) higher ||| (byte.toBitVec.setWidth bits <<< (8 * place))

/-- The bits of the given width at an address. An array joins bytes that it loads one at a time, and
a reserved memory reads a number in one piece where it can. -/
def loadBits (memory : Memory) (width : Width) (address : UInt32) :
    Except MemoryError (BitVec width.bits) :=
  match memory.backing with
  | .array => (memory.loadEach width.bytes address).map (joinBytes width.bits 0)
  | .reserved => (memory.loadBytes width.bytes address).map fun bytes =>
      BitVec.ofNat width.bits (littleEndian bytes)

/-- The signed number of the given width at an address. -/
def loadSigned (memory : Memory) (width : Width) (address : UInt32) : Except MemoryError Int :=
  (memory.loadBits width address).map BitVec.toInt

/-- The value of some bytes at an address of a segment, extended with zeros to a word. -/
def read (memory : Memory) (address : UInt32) (bytes : Nat) (segment : Segment) :
    Except MemoryError UInt32 :=
  if segment.isFlat then
    match Width.ofBytes? bytes with
    | some width => (memory.loadBits width address).map fun bits =>
        UInt32.ofBitVec (bits.setWidth 32)
    | none => .error (.invalidSize bytes)
  else .error (.unsupportedSegment segment)

end Memory

end GuestProbe
