/-! # Segments

The guest uses flat segmentation: `cs`, `ds`, `es` and `ss` all describe the same linear address
space, so that an address within one of them is also a linear address. `fs` and `gs` are left to
the guest and cannot be read through.
-/

namespace GuestProbe

inductive Segment where
  | cs
  | ds
  | es
  | fs
  | gs
  | ss
deriving DecidableEq, Repr

namespace Segment

def all : List Segment :=
  [.cs, .ds, .es, .fs, .gs, .ss]

def name : Segment → String
  | .cs => "cs"
  | .ds => "ds"
  | .es => "es"
  | .fs => "fs"
  | .gs => "gs"
  | .ss => "ss"

def ofName? (name : String) : Option Segment :=
  all.find? (·.name == name)

/-- The segment covers the linear address space from address 0 on. -/
def isFlat : Segment → Bool
  | .fs | .gs => false
  | _ => true

end Segment

end GuestProbe
