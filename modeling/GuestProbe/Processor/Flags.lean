/-! # Status flags

The flags register has a bit for each status flag and one reserved bit, which is always set. All
other bits read as zero, whatever is written to them.
-/

namespace GuestProbe

/-- The bits of the flags register that can be set. -/
inductive Flag where
  | carry
  | reserved
  | parity
  | adjust
  | zero
  | sign
  | trap
  | interrupt
  | direction
  | overflow
deriving DecidableEq, Repr

namespace Flag

/-- All flags, from the lowest bit to the highest. -/
def all : List Flag :=
  [.carry, .reserved, .parity, .adjust, .zero, .sign, .trap, .interrupt, .direction, .overflow]

def name : Flag → String
  | .carry => "CF"
  | .reserved => "RESERVED"
  | .parity => "PF"
  | .adjust => "AF"
  | .zero => "ZF"
  | .sign => "SF"
  | .trap => "TF"
  | .interrupt => "IF"
  | .direction => "DF"
  | .overflow => "OF"

/-- The position of a flag's bit. -/
def bit : Flag → UInt32
  | .carry => 0
  | .reserved => 1
  | .parity => 2
  | .adjust => 4
  | .zero => 6
  | .sign => 7
  | .trap => 8
  | .interrupt => 9
  | .direction => 10
  | .overflow => 11

/-- The word in which only this flag is set. -/
def mask (flag : Flag) : UInt32 :=
  1 <<< flag.bit

end Flag

/-- The word in which all flags are set. -/
def flagBits : UInt32 :=
  Flag.all.foldl (fun bits flag => bits ||| flag.mask) 0

/-- What the flags register holds after a word is written to it. -/
def flagsWord (written : UInt32) : UInt32 :=
  (written &&& flagBits) ||| Flag.reserved.mask

theorem flagBits_eq : flagBits = 0xFD7 := by decide

/-- The names of the flags that are set in a word, from the lowest bit to the highest. -/
def flagsText (word : UInt32) : String :=
  " | ".intercalate ((Flag.all.filter fun flag => word &&& flag.mask != 0).map Flag.name)

end GuestProbe
