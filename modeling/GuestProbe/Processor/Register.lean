import GuestProbe.Width

/-! # Registers

The processor keeps its state in ten 32-bit cells. A register is a name for a slice of a cell: a
cell as a whole, its low half or one of the two bytes of that half. Within each width the registers
are listed in the order in which instructions number them.
-/

namespace GuestProbe

/-- A place that holds a word. -/
inductive Cell where
  | eax
  | ecx
  | edx
  | ebx
  | esp
  | ebp
  | esi
  | edi
  | eip
  | eflags
deriving DecidableEq, Repr

inductive Register where
  | eax
  | ecx
  | edx
  | ebx
  | esp
  | ebp
  | esi
  | edi
  | ax
  | cx
  | dx
  | bx
  | sp
  | bp
  | si
  | di
  | al
  | cl
  | dl
  | bl
  | ah
  | ch
  | dh
  | bh
  | eip
  | eflags
deriving DecidableEq, Repr

namespace Register

/-- All registers, in the order of their declaration. -/
def all : List Register :=
  [.eax, .ecx, .edx, .ebx, .esp, .ebp, .esi, .edi, .ax, .cx, .dx, .bx, .sp, .bp, .si, .di,
    .al, .cl, .dl, .bl, .ah, .ch, .dh, .bh, .eip, .eflags]

theorem mem_all (register : Register) : register ∈ all := by
  cases register <;> decide

def name : Register → String
  | .eax => "eax"
  | .ecx => "ecx"
  | .edx => "edx"
  | .ebx => "ebx"
  | .esp => "esp"
  | .ebp => "ebp"
  | .esi => "esi"
  | .edi => "edi"
  | .ax => "ax"
  | .cx => "cx"
  | .dx => "dx"
  | .bx => "bx"
  | .sp => "sp"
  | .bp => "bp"
  | .si => "si"
  | .di => "di"
  | .al => "al"
  | .cl => "cl"
  | .dl => "dl"
  | .bl => "bl"
  | .ah => "ah"
  | .ch => "ch"
  | .dh => "dh"
  | .bh => "bh"
  | .eip => "eip"
  | .eflags => "eflags"

/-- Finds a register by its lowercase name. -/
def ofName? (name : String) : Option Register :=
  all.find? (·.name == name)

theorem ofName?_name (register : Register) : ofName? register.name = some register := by
  cases register <;> decide

/-- The size of a register. -/
def width : Register → Width
  | .al | .cl | .dl | .bl | .ah | .ch | .dh | .bh => .bits8
  | .ax | .cx | .dx | .bx | .sp | .bp | .si | .di => .bits16
  | .eax | .ecx | .edx | .ebx | .esp | .ebp | .esi | .edi | .eip | .eflags => .bits32

/-- The cell that a register is a slice of. -/
def cell : Register → Cell
  | .eax | .ax | .al | .ah => .eax
  | .ecx | .cx | .cl | .ch => .ecx
  | .edx | .dx | .dl | .dh => .edx
  | .ebx | .bx | .bl | .bh => .ebx
  | .esp | .sp => .esp
  | .ebp | .bp => .ebp
  | .esi | .si => .esi
  | .edi | .di => .edi
  | .eip => .eip
  | .eflags => .eflags

/-- The lowest bit of the cell that belongs to a register. -/
def lowBit : Register → UInt32
  | .ah | .ch | .dh | .bh => 8
  | _ => 0

/-- The bits of the cell that belong to a register. -/
def mask (register : Register) : UInt32 :=
  register.width.mask <<< register.lowBit

end Register

end GuestProbe
