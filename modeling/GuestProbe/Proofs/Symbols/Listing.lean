import GuestProbe.Proofs.Text.Digits
import GuestProbe.Symbols.Listing

/-! # The table of a listing

A line defines a name if it gives the name an address (`Defines`). After the lines of a listing have
been added to a table, a name that they define has the address of the last line that defines it, and
every other name has the word that it had before.
-/

namespace GuestProbe

open Text

/-- The line gives the name an address. -/
def Defines (line : List Char) (name : String) (address : UInt32) : Prop :=
  ∃ number type, words line = [number, type, name.toList] ∧ byteLength type = 1 ∧
    IsHexNumber number address

theorem listedSymbol_eq_some_iff (number : Nat) (line : List Char) (name : String)
    (address : UInt32) :
    listedSymbol number line = .ok (some (name, address)) ↔ Defines line name address := by
  constructor
  · intro listed
    unfold listedSymbol at listed
    split at listed
    · cases listed
    · split at listed <;> cases listed
    · next text type chars parts =>
      split at listed
      · next single =>
        split at listed
        · next word read =>
          cases listed
          refine ⟨text, type, ?_, single, (readWord_eq_ok_iff text address).mp read⟩
          rw [String.toList_ofList]
          exact parts
        · cases listed
      · cases listed
    · cases listed
  · rintro ⟨text, type, parts, single, number⟩
    have read := (readWord_eq_ok_iff text address).mpr number
    simp only [listedSymbol, parts, if_pos single, read, String.ofList_toList]

/-- A line of a listing that is read changes only the name that it defines. -/
theorem SymbolTable.addLines_cons {symbols table : SymbolTable} {count number total : Nat}
    {line : List Char} {rest : List (List Char)}
    (read : symbols.addLines count number (line :: rest) = (table, .ok total)) :
    ∃ next nextCount, SymbolTable.addLines next nextCount (number + 1) rest = (table, .ok total) ∧
      (∀ name address, Defines line name address → next.resolve? name = some address) ∧
      ∀ name, (∀ address, ¬Defines line name address) →
        next.resolve? name = symbols.resolve? name := by
  rw [addLines] at read
  split at read
  · cases read
  · next none =>
    refine ⟨symbols, count, read, ?_, fun name _ => rfl⟩
    intro name address defines
    cases none.symm.trans ((listedSymbol_eq_some_iff number line name address).mpr defines)
  · next defined word listed =>
    refine ⟨symbols.insert defined word, count + 1, read, ?_, ?_⟩
    · intro name address defines
      have same := listed.symm.trans
        ((listedSymbol_eq_some_iff number line name address).mpr defines)
      cases same
      rw [resolve?_insert, if_pos rfl]
    · intro name undefined
      rw [resolve?_insert, if_neg]
      rintro rfl
      exact undefined word ((listedSymbol_eq_some_iff number line defined word).mp listed)

/-- A name that no line defines keeps its word. -/
theorem SymbolTable.resolve?_addLines_of_undefined {symbols table : SymbolTable}
    {count number total : Nat} {lines : List (List Char)} {name : String}
    (read : symbols.addLines count number lines = (table, .ok total))
    (undefined : ∀ line ∈ lines, ∀ address, ¬Defines line name address) :
    table.resolve? name = symbols.resolve? name := by
  induction lines generalizing symbols count number with
  | nil =>
    cases read
    rfl
  | cons line rest ih =>
    obtain ⟨next, nextCount, later, -, frame⟩ := addLines_cons read
    rw [ih later fun other member => undefined other (List.mem_cons_of_mem _ member)]
    exact frame name (undefined line List.mem_cons_self)

/-- The last line that defines the name gives it the address. -/
def LastDefines (lines : List (List Char)) (name : String) (address : UInt32) : Prop :=
  ∃ before line after, lines = before ++ line :: after ∧ Defines line name address ∧
    ∀ later ∈ after, ∀ other, ¬Defines later name other

/-- A name that some line defines has the address of the last one. -/
theorem SymbolTable.resolve?_addLines {symbols table : SymbolTable} {count number total : Nat}
    {lines : List (List Char)} {name : String} {address : UInt32}
    (read : symbols.addLines count number lines = (table, .ok total))
    (defined : LastDefines lines name address) : table.resolve? name = some address := by
  obtain ⟨before, line, after, rfl, defines, last⟩ := defined
  induction before generalizing symbols count number with
  | nil =>
    obtain ⟨next, nextCount, later, here, -⟩ := addLines_cons read
    rw [resolve?_addLines_of_undefined later last]
    exact here name address defines
  | cons earlier before ih =>
    obtain ⟨next, nextCount, later, -, -⟩ := addLines_cons read
    exact ih later

end GuestProbe
