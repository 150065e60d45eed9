import Std.Data.ExtTreeMap

/-! # Symbol tables

A symbol table gives words to names, in the order of the names' characters.
-/

namespace GuestProbe

structure SymbolTable where
  entries : Std.ExtTreeMap String UInt32

namespace SymbolTable

def empty : SymbolTable :=
  ⟨∅⟩

/-- The word for a name. -/
def resolve? (symbols : SymbolTable) (name : String) : Option UInt32 :=
  symbols.entries[name]?

/-- Defines a name, in place of an earlier definition. -/
def insert (symbols : SymbolTable) (name : String) (word : UInt32) : SymbolTable :=
  ⟨symbols.entries.insert name word⟩

/-- Defines names from left to right. -/
def insertAll (symbols : SymbolTable) (definitions : List (String × UInt32)) : SymbolTable :=
  definitions.foldl (fun table (name, word) => table.insert name word) symbols

/-- The number of names. -/
def size (symbols : SymbolTable) : Nat :=
  symbols.entries.size

/-- The names in order, with their words. -/
def toList (symbols : SymbolTable) : List (String × UInt32) :=
  symbols.entries.toList

theorem resolve?_empty (name : String) : empty.resolve? name = none := by
  simp [resolve?, empty]

theorem resolve?_insert (symbols : SymbolTable) (name query : String) (word : UInt32) :
    (symbols.insert name word).resolve? query =
      if name = query then some word else symbols.resolve? query := by
  simp [resolve?, insert, Std.ExtTreeMap.getElem?_insert]

end SymbolTable

end GuestProbe
