/-! # Byte stores

A byte store is a block of bytes from address 0 to its size. It is kept as a history of filled
ranges, the newest first, so that a block may be large while only little of it was ever written.
Bytes that were never written are zero. A block that grows fills all of its new bytes, which hides
what was stored there before the block shrank.
-/

namespace GuestProbe

/-- A range that was filled: the bytes come first and the padding takes the rest of the range. -/
structure FilledRange where
  start : Nat
  length : Nat
  bytes : Array UInt8
  padding : UInt8

/-- The byte that a filled range holds at an address. -/
def FilledRange.get? (range : FilledRange) (address : Nat) : Option UInt8 :=
  if range.start ≤ address ∧ address < range.start + range.length then
    some (range.bytes.getD (address - range.start) range.padding)
  else none

/-- A block of bytes and the ranges that were filled in it, the newest first. -/
structure ByteStore where
  size : Nat
  filled : List FilledRange

namespace ByteStore

/-- A block of zeros. -/
def zeros (size : Nat) : ByteStore :=
  ⟨size, []⟩

/-- A block that holds the given bytes. -/
def ofBytes (bytes : Array UInt8) : ByteStore :=
  ⟨bytes.size, [⟨0, bytes.size, bytes, 0⟩]⟩

/-- The newest byte filled in at an address. -/
def newest (filled : List FilledRange) (address : Nat) : UInt8 :=
  (filled.findSome? (·.get? address)).getD 0

/-- The byte at an address within the block. -/
def get? (store : ByteStore) (address : Nat) : Option UInt8 :=
  if address < store.size then some (newest store.filled address) else none

/-- The bytes from an address on, if the block holds all of them. -/
def slice? (store : ByteStore) (start count : Nat) : Option (List UInt8) :=
  if start + count ≤ store.size then
    some ((List.range' start count).map (newest store.filled))
  else none

/-- Fills a range with bytes, and with zeros after the last of them. -/
def fill (store : ByteStore) (start length : Nat) (bytes : Array UInt8) : ByteStore :=
  { store with filled := ⟨start, length, bytes, 0⟩ :: store.filled }

/-- Changes the size of the block; new bytes get the given value. -/
def resize (store : ByteStore) (size : Nat) (byte : UInt8) : ByteStore :=
  if store.size < size then ⟨size, ⟨store.size, size - store.size, #[], byte⟩ :: store.filled⟩
  else { store with size }

/-- Adds zeros to a block that is shorter than the given size. -/
def growTo (store : ByteStore) (size : Nat) : ByteStore :=
  if store.size < size then store.resize size 0 else store

theorem get?_ofBytes (bytes : Array UInt8) (address : Nat) :
    (ofBytes bytes).get? address = bytes[address]? := by
  unfold get? ofBytes newest
  by_cases inside : address < bytes.size
  · simp [inside, FilledRange.get?]
  · simp [inside]

theorem get?_zeros (size address : Nat) :
    (zeros size).get? address = if address < size then some 0 else none := rfl

theorem newest_cons (range : FilledRange) (filled : List FilledRange) (address : Nat) :
    newest (range :: filled) address = (range.get? address).getD (newest filled address) := by
  cases found : range.get? address <;> simp [newest, found]

theorem get?_fill (store : ByteStore) (start length address : Nat) (bytes : Array UInt8) :
    (store.fill start length bytes).get? address =
      if address < store.size ∧ start ≤ address ∧ address < start + length then
        some (bytes.getD (address - start) 0)
      else store.get? address := by
  simp only [get?, fill, newest_cons, FilledRange.get?]
  by_cases inside : address < store.size <;>
    by_cases within : start ≤ address ∧ address < start + length <;> simp [inside, within]

theorem get?_resize (store : ByteStore) (size address : Nat) (byte : UInt8) :
    (store.resize size byte).get? address =
      if address < size then
        if address < store.size then store.get? address else some byte
      else none := by
  unfold resize
  split
  · next longer =>
    simp only [get?, newest_cons, FilledRange.get?]
    by_cases inside : address < size
    · by_cases old : address < store.size
      · simp [inside, old, Nat.not_le.mpr old]
      · have within : address < store.size + (size - store.size) := by omega
        simp [inside, old, Nat.not_lt.mp old, within]
    · simp [inside]
  · next shorter =>
    simp only [get?]
    by_cases inside : address < size
    · have old : address < store.size := by omega
      simp [inside, old]
    · simp [inside]

theorem get?_eq_none_iff (store : ByteStore) (address : Nat) :
    store.get? address = none ↔ store.size ≤ address := by
  simp [get?]

/-- A slice that the block holds consists of its bytes. -/
theorem slice?_eq_some_iff (store : ByteStore) (start count : Nat) (bytes : List UInt8) :
    store.slice? start count = some bytes ↔
      start + count ≤ store.size ∧ bytes = (List.range' start count).map (newest store.filled) := by
  simp [slice?, eq_comm]

end ByteStore

end GuestProbe
