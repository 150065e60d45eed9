/-! # Widths

A width is the size of a register, of a memory access or of a jump's displacement: one, two or
four bytes.
-/

namespace GuestProbe

inductive Width where
  | bits8
  | bits16
  | bits32
deriving DecidableEq, Repr

namespace Width

def all : List Width :=
  [.bits8, .bits16, .bits32]

def bytes : Width → Nat
  | .bits8 => 1
  | .bits16 => 2
  | .bits32 => 4

/-- The width in bits. -/
def bits (width : Width) : Nat :=
  8 * width.bytes

/-- The word whose low bits, as many as the width has, are set. -/
def mask : Width → UInt32
  | .bits8 => 0xFF
  | .bits16 => 0xFFFF
  | .bits32 => 0xFFFFFFFF

/-- The width with a given number of bytes. -/
def ofBytes? (bytes : Nat) : Option Width :=
  all.find? (·.bytes == bytes)

/-- The width with a given number of bits. -/
def ofBits? (bits : Nat) : Option Width :=
  all.find? (·.bits == bits)

theorem ofBytes?_eq_some_iff (bytes : Nat) (width : Width) :
    ofBytes? bytes = some width ↔ width.bytes = bytes := by
  unfold ofBytes? all
  cases width <;> grind [Width.bytes]

end Width

end GuestProbe
