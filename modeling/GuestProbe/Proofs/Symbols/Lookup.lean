import GuestProbe.Machine
import GuestProbe.Proofs.Expression.Operand
import GuestProbe.Proofs.Symbols.Listing

/-! # Evaluating listed symbols

A listing is read with whole names, while the token for a symbol holds no more than 31 bytes of its
name. So a symbol that was read can be used if its name is not longer than that, and a longer name
stands for the symbol that is named by its first 31 bytes, if there is one
(`evaluate_listed_symbol`).
-/

namespace GuestProbe

open Text

/-- The value of an expression that consists of the name. -/
def Machine.lookup (machine : Machine) (name : String) : Except ExpressionError UInt32 :=
  match machine.symbols.resolve? name with
  | some word => .ok word
  | none => if machine.lenient then .ok unknownSymbolWord else .error (.unknownSymbol name 0)

theorem Machine.outcome_operand_symbol (machine : Machine) (name : String) :
    (machine.environment.operand ⟨.symbol, 0, name, 0⟩).outcome = machine.lookup name := by
  have asked : machine.environment.symbol name = machine.symbols.resolve? name := rfl
  have choice : machine.environment.lenient = machine.lenient := rfl
  simp only [Environment.operand, asked, choice, lookup]
  cases machine.symbols.resolve? name with
  | some word => rfl
  | none => cases machine.lenient <;> rfl

/-- A name that the rules read as one symbol has the value of as much of it as a token holds. -/
theorem Machine.evaluate_symbol (machine : Machine) {name : String}
    (isSymbol : Reads name.toList .symbol name.toList []) :
    machine.evaluate name =
      machine.lookup (String.ofList (takeBytes Token.textLimit name.toList)) := by
  have evaluated := machine.environment.evaluate_of_reads isSymbol rfl
  rw [String.ofList_toList] at evaluated
  exact evaluated.trans (machine.outcome_operand_symbol _)

/-- After a listing has been read, a name that it defines and that the rules read as one symbol has
the address of the last line that defines it, if the name takes no more than 31 bytes. A longer name
is looked up by its first 31 bytes. -/
theorem evaluate_listed_symbol (machine : Machine) {listing : List Char} {table : SymbolTable}
    {count : Nat} {name : String} {address : UInt32}
    (read : machine.symbols.addListing listing = (table, .ok count))
    (defined : LastDefines (lines listing) name address)
    (isSymbol : Reads name.toList .symbol name.toList []) :
    (byteLength name.toList ≤ Token.textLimit →
        Machine.evaluate { machine with symbols := table } name = .ok address) ∧
      Machine.evaluate { machine with symbols := table } name =
        Machine.lookup { machine with symbols := table }
          (String.ofList (takeBytes Token.textLimit name.toList)) := by
  have evaluated := Machine.evaluate_symbol { machine with symbols := table } isSymbol
  refine ⟨fun short => ?_, evaluated⟩
  have found : table.resolve? name = some address := SymbolTable.resolve?_addLines read defined
  rw [evaluated, takeBytes_of_le _ _ short, String.ofList_toList]
  simp only [Machine.lookup, found]

/-- Of two definitions of `main` the second counts, and not the one that the table had before. -/
theorem evaluate_listed_symbol_main :
    let listing := "00001000 T main\n         U puts\n00002000 t main\n".toList
    let before := SymbolTable.empty.insert "main" 7
    let table := (before.insert "main" 0x1000).insert "main" 0x2000
    let machine : Machine := ⟨RegisterFile.initial 0 0, Memory.array #[], before, true⟩
    machine.symbols.addListing listing = (table, .ok 2) ∧
      LastDefines (lines listing) "main" 0x2000 ∧ Reads "main".toList .symbol "main".toList [] ∧
      Machine.evaluate { machine with symbols := table } "main" = .ok 0x2000 := by
  intro listing before table machine
  have read : machine.symbols.addListing listing = (table, .ok 2) := rfl
  have defines : Defines "00002000 t main".toList "main" 0x2000 :=
    ⟨"00002000".toList, ['t'], by decide, by decide, "00002000".toList, .inl rfl, by decide,
      List.all_eq_true.mp rfl, by decide⟩
  have defined : LastDefines (lines listing) "main" 0x2000 :=
    ⟨["00001000 T main".toList, "         U puts".toList], _, [], by decide, defines, by simp⟩
  have isSymbol : Reads "main".toList .symbol "main".toList [] := ⟨_, _, rfl, rfl⟩
  exact ⟨read, defined, isSymbol,
    (evaluate_listed_symbol machine read defined isSymbol).1 (by decide)⟩

/-- A symbol whose name takes 32 bytes has the address of the symbol that is named by the first 31
of them. -/
theorem evaluate_symbol_of_32_bytes :
    let longer := String.ofList (List.replicate 32 'a')
    let shorter := String.ofList (List.replicate 31 'a')
    let firstLine := "1000 T ".toList ++ List.replicate 32 'a'
    let secondLine := "2000 T ".toList ++ List.replicate 31 'a'
    let listing := firstLine ++ '\n' :: secondLine
    let table := (SymbolTable.empty.insert longer 0x1000).insert shorter 0x2000
    SymbolTable.empty.addListing listing = (table, .ok 2) ∧
      LastDefines (lines listing) longer 0x1000 ∧ Reads longer.toList .symbol longer.toList [] ∧
      ∀ registers memory lenient,
        Machine.evaluate ⟨registers, memory, table, lenient⟩ longer = .ok 0x2000 ∧
          Machine.evaluate ⟨registers, memory, table, lenient⟩ longer ≠ .ok 0x1000 := by
  intro longer shorter firstLine secondLine listing table
  have split : lines listing = [firstLine, secondLine] := by decide
  have firstDefines : Defines firstLine longer 0x1000 :=
    ⟨"1000".toList, ['T'], by decide, by decide, "1000".toList, .inl rfl, by decide,
      List.all_eq_true.mp rfl, by decide⟩
  have secondDefines : Defines secondLine shorter 0x2000 :=
    ⟨"2000".toList, ['T'], by decide, by decide, "2000".toList, .inl rfl, by decide,
      List.all_eq_true.mp rfl, by decide⟩
  have read : SymbolTable.empty.addListing listing = (table, .ok 2) := by
    have first := (listedSymbol_eq_some_iff 1 firstLine longer 0x1000).mpr firstDefines
    have second := (listedSymbol_eq_some_iff 2 secondLine shorter 0x2000).mpr secondDefines
    rw [SymbolTable.addListing, split]
    simp only [SymbolTable.addLines, first, second, table]
  have last : ∀ later ∈ [secondLine], ∀ address, ¬Defines later longer address := by
    intro later member address defines
    obtain rfl := List.mem_singleton.mp member
    obtain ⟨number, type, parts, -⟩ := defines
    obtain ⟨otherNumber, otherType, otherParts, -⟩ := secondDefines
    have names := parts.symm.trans otherParts
    simp only [List.cons.injEq] at names
    exact absurd names.2.2.1 (by decide)
  have defined : LastDefines (lines listing) longer 0x1000 :=
    ⟨[], firstLine, [secondLine], split, firstDefines, last⟩
  have isName : IsName longer.toList := by
    refine ⟨⟨by decide, List.all_eq_true.mp (by decide)⟩, ?_, ?_⟩
    · intro decimal
      exact absurd (decimal.2 'a' (by decide)) (by decide)
    · rintro ⟨marker, digits, same, -⟩
      have first : longer.toList.head? = some '0' := congrArg List.head? same
      exact absurd first (by decide)
  have isSymbol : Reads longer.toList .symbol longer.toList [] := by
    have reads := reads_symbol isName (rfl : EndsWord [])
    rwa [List.append_nil] at reads
  refine ⟨read, defined, isSymbol, fun registers memory lenient => ?_⟩
  have kept : String.ofList (takeBytes Token.textLimit longer.toList) = shorter := by decide
  have found : table.resolve? shorter = some 0x2000 := by
    rw [SymbolTable.resolve?_insert, if_pos rfl]
  have evaluated := Machine.evaluate_symbol ⟨registers, memory, table, lenient⟩ isSymbol
  simp only [kept, Machine.lookup, found] at evaluated
  refine ⟨evaluated, ?_⟩
  rw [evaluated]
  decide

end GuestProbe
