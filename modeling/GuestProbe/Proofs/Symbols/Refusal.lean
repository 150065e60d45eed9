import GuestProbe.Proofs.Symbols.Listing
import GuestProbe.Proofs.Text.Lines

/-! # Listings with refused lines

A listing is read up to the first line that is refused. The lines before it have been added by then
and stay in the table; the error has the number of the refused line and says what is wrong with it.

Reading can be cut after any line (`SymbolTable.addLines_append`), and the lines after the cut are
read as a listing of their own, of which only the count and the line numbers are off by what was read
before (`SymbolTable.addLines_resumed`).
-/

namespace GuestProbe

open Text

/-! ## Lines -/

/-- The line is blank, lists an undefined symbol or defines a name. -/
def IsAccepted (line : List Char) : Prop :=
  words line = [] ∨ (∃ type name, words line = [type, name] ∧ byteLength type = 1) ∨
    ∃ name address, Defines line name address

/-- The error for a line that is refused: the address is wrong if the other parts are right. -/
def refusal (number : Nat) (line : List Char) : ListingError :=
  match words line with
  | [address, type, _] =>
      if byteLength type = 1 then .badAddress number (String.ofList address) else .malformed number
  | _ => .malformed number

theorem Defines.length_words {line : List Char} {name : String} {address : UInt32}
    (defines : Defines line name address) : (words line).length = 3 := by
  obtain ⟨number, type, parts, -, -⟩ := defines
  rw [parts]
  rfl

/-- An accepted line is skipped or defines a name, and has three words in the second case only. -/
theorem listedSymbol_of_isAccepted {line : List Char} (accepted : IsAccepted line) (number : Nat) :
    (listedSymbol number line = .ok none ∧ (words line).length ≠ 3) ∨
      ∃ name address, Defines line name address ∧
        listedSymbol number line = .ok (some (name, address)) := by
  rcases accepted with blank | ⟨type, name, parts, single⟩ | ⟨name, address, defines⟩
  · left
    rw [listedSymbol, blank]
    exact ⟨rfl, by decide⟩
  · left
    simp [listedSymbol, parts, single]
  · right
    exact ⟨name, address, defines, (listedSymbol_eq_some_iff number line name address).mpr defines⟩

theorem listedSymbol_of_not_isAccepted {line : List Char} (refused : ¬IsAccepted line)
    (number : Nat) : listedSymbol number line = .error (refusal number line) := by
  unfold listedSymbol refusal
  split
  · next blank => exact absurd (.inl blank) refused
  · next type name parts =>
    rw [if_neg fun single => refused (.inr (.inl ⟨type, name, parts, single⟩)), parts]
  · next address type name parts =>
    rw [parts]
    by_cases single : byteLength type = 1
    · simp only [if_pos single]
      cases read : readWord 16 address with
      | error error => rfl
      | ok word =>
        have defines : Defines line (String.ofList name) word :=
          ⟨address, type, by rw [parts, String.toList_ofList], single,
            (readWord_eq_ok_iff address word).mp read⟩
        exact absurd (.inr (.inr ⟨_, word, defines⟩)) refused
    · simp only [if_neg single]
  · next other =>
    split
    · next address type name parts => exact absurd parts (other address type name)
    · rfl

/-! ## Reading in parts -/

/-- The error of a line that stands a number of lines later. -/
def ListingError.later (skipped : Nat) : ListingError → ListingError
  | .malformed line => .malformed (skipped + line)
  | .badAddress line text => .badAddress (skipped + line) text

/-- The result for a listing that goes on after some lines with some symbols. -/
def resumed (skipped counted : Nat) (result : Except ListingError Nat) : Except ListingError Nat :=
  (result.map (counted + ·)).mapError (.later skipped)

theorem listedSymbol_later (skipped number : Nat) (line : List Char) :
    listedSymbol (skipped + number) line =
      (listedSymbol number line).mapError (.later skipped) := by
  unfold listedSymbol
  split
  · rfl
  · split <;> rfl
  · split
    · split <;> rfl
    · rfl
  · rfl

namespace SymbolTable

/-- The lines of a listing are read after others as they are read alone. -/
theorem addLines_resumed (symbols : SymbolTable) (skipped counted count number : Nat)
    (rest : List (List Char)) :
    symbols.addLines (counted + count) (skipped + number) rest =
      Prod.map id (resumed skipped counted) (symbols.addLines count number rest) := by
  induction rest generalizing symbols count number with
  | nil => rfl
  | cons line rest ih =>
    rw [addLines, addLines, listedSymbol_later]
    cases listedSymbol number line with
    | error error => rfl
    | ok listed =>
      cases listed with
      | none => exact ih symbols count (number + 1)
      | some defined => exact ih (symbols.insert defined.1 defined.2) (count + 1) (number + 1)

/-- Lines are read after others unless one of these is refused. -/
theorem addLines_append (symbols : SymbolTable) (count number : Nat)
    (front rest : List (List Char)) :
    symbols.addLines count number (front ++ rest) =
      match symbols.addLines count number front with
      | (table, .ok total) => table.addLines total (number + front.length) rest
      | (table, .error error) => (table, .error error) := by
  induction front generalizing symbols count number with
  | nil => rfl
  | cons line front ih =>
    rw [List.cons_append, addLines, addLines, List.length_cons, Nat.add_comm front.length,
      ← Nat.add_assoc]
    cases listedSymbol number line with
    | error error => rfl
    | ok listed =>
      cases listed with
      | none => exact ih symbols count (number + 1)
      | some defined => exact ih (symbols.insert defined.1 defined.2) (count + 1) (number + 1)

/-- Accepted lines are read to the end, and those of three words are counted. -/
theorem addLines_of_isAccepted (symbols : SymbolTable) (count number : Nat)
    {accepted : List (List Char)} (all : ∀ line ∈ accepted, IsAccepted line) :
    (symbols.addLines count number accepted).2 =
      .ok (count + accepted.countP fun line => (words line).length = 3) := by
  induction accepted generalizing symbols count number with
  | nil => rfl
  | cons line rest ih =>
    obtain ⟨here, later⟩ := List.forall_mem_cons.mp all
    rcases listedSymbol_of_isAccepted here number with
      ⟨listed, other⟩ | ⟨name, address, defines, listed⟩
    · rw [addLines, listed, List.countP_cons_of_neg (by simpa using other)]
      exact ih symbols count (number + 1) later
    · rw [addLines, listed, List.countP_cons_of_pos (by simpa using defines.length_words),
        Nat.add_comm (List.countP _ rest), ← Nat.add_assoc]
      exact ih (symbols.insert name address) (count + 1) (number + 1) later

/-- Reading stops at a refused line after accepted ones. -/
theorem addLines_of_refused (symbols : SymbolTable) (count number : Nat)
    {before : List (List Char)} (all : ∀ line ∈ before, IsAccepted line) {refused : List Char}
    (bad : ¬IsAccepted refused) (after : List (List Char)) :
    symbols.addLines count number (before ++ refused :: after) =
      ((symbols.addLines count number before).1,
        .error (refusal (number + before.length) refused)) := by
  have complete := addLines_of_isAccepted symbols count number all
  rw [addLines_append]
  rcases read : symbols.addLines count number before with ⟨table, result⟩
  rw [read] at complete
  cases complete
  simp only [addLines, listedSymbol_of_not_isAccepted bad]

end SymbolTable

/-- A name is defined by a last line or by none. -/
theorem lastDefines_or_undefined (lines : List (List Char)) (name : String) :
    (∃ address, LastDefines lines name address) ∨
      ∀ line ∈ lines, ∀ address, ¬Defines line name address := by
  induction lines with
  | nil => exact .inr fun line member => absurd member List.not_mem_nil
  | cons line rest ih =>
    rcases ih with ⟨address, before, last, after, rfl, defines, none⟩ | none
    · exact .inl ⟨address, line :: before, last, after, rfl, defines, none⟩
    · by_cases here : ∃ address, Defines line name address
      · obtain ⟨address, defines⟩ := here
        exact .inl ⟨address, [], line, rest, rfl, defines, none⟩
      · exact .inr (List.forall_mem_cons.mpr ⟨not_exists.mp here, none⟩)

/-- Reading a listing adds the lines before the first refused one to the table. If no line is refused,
the result is the number of lines with three words, every name that some line defines has the
address of the last such line, and any other name has the word that it had. Otherwise the table is
what the lines before the refused one make of it, and the error is the one for that line. A listing
of whole lines can be read on its own before the rest, which changes nothing but the count and the
line numbers of the rest. -/
theorem addListing_commits_accepted (symbols : SymbolTable) (listing : List Char) :
    ((∀ line ∈ lines listing, IsAccepted line) →
      (symbols.addListing listing).2 =
          .ok ((lines listing).countP fun line => (words line).length = 3) ∧
        ∀ name,
          (∃ address, LastDefines (lines listing) name address ∧
            (symbols.addListing listing).1.resolve? name = some address) ∨
          (∀ line ∈ lines listing, ∀ address, ¬Defines line name address) ∧
            (symbols.addListing listing).1.resolve? name = symbols.resolve? name) ∧
    (∀ before refused after, lines listing = before ++ refused :: after →
      (∀ line ∈ before, IsAccepted line) → ¬IsAccepted refused →
      lines (unlines before) = before ∧
        symbols.addListing listing =
          ((symbols.addListing (unlines before)).1,
            .error (refusal (before.length + 1) refused))) ∧
    ∀ rest, (listing = [] ∨ listing.getLast? = some '\n') →
      symbols.addListing (listing ++ rest) =
        match symbols.addListing listing with
        | (table, .ok count) =>
            Prod.map id (resumed (lines listing).length count) (table.addListing rest)
        | (table, .error error) => (table, .error error) := by
  refine ⟨?accepted, ?refused, ?parts⟩
  case accepted =>
    intro all
    have complete := symbols.addLines_of_isAccepted 0 1 all
    rw [Nat.zero_add] at complete
    have read : symbols.addLines 0 1 (lines listing) = ((symbols.addListing listing).1, .ok _) :=
      Prod.ext rfl complete
    constructor
    · exact complete
    · intro name
      rcases lastDefines_or_undefined (lines listing) name with ⟨address, defined⟩ | undefined
      · exact .inl ⟨address, defined, SymbolTable.resolve?_addLines read defined⟩
      · exact .inr ⟨undefined, SymbolTable.resolve?_addLines_of_undefined read undefined⟩
  case refused =>
    intro before refused after split all bad
    have whole : lines (unlines before) = before := by
      apply lines_unlines
      intro line member
      have among : line ∈ lines listing := split ▸ List.mem_append_left _ member
      exact not_mem_of_mem_lines among
    constructor
    · exact whole
    · rw [SymbolTable.addListing, SymbolTable.addListing, whole, split,
        symbols.addLines_of_refused 0 1 all bad after, Nat.add_comm 1]
  case parts =>
    intro rest finished
    rw [SymbolTable.addListing, lines_append finished, SymbolTable.addLines_append,
      ← SymbolTable.addListing]
    rcases symbols.addListing listing with ⟨table, result⟩
    cases result with
    | error error => rfl
    | ok count =>
      rw [Nat.add_comm 1]
      exact table.addLines_resumed (lines listing).length count 0 1 (lines rest)

/-- Of a definition, an undefined symbol and a blank line one symbol is counted. The next line is
refused for its address, after which the last line is not read. -/
theorem addListing_commits_accepted_before_bad_address :
    let listing := "1000 T main\n U puts\n\nzz T bad\n2000 T late".toList
    let before := ["1000 T main".toList, " U puts".toList, []]
    (SymbolTable.empty.addListing (unlines before)).2 = .ok 1 ∧
      SymbolTable.empty.addListing listing =
        (SymbolTable.empty.insert "main" 0x1000, .error (.badAddress 4 "zz")) := by
  intro listing before
  have main : Defines "1000 T main".toList "main" 0x1000 :=
    (listedSymbol_eq_some_iff 1 ..).mp (by decide)
  have accepted : ∀ line ∈ before, IsAccepted line := by
    refine List.forall_mem_cons.mpr ⟨.inr (.inr ⟨_, _, main⟩), ?_⟩
    refine List.forall_mem_cons.mpr ⟨.inr (.inl ⟨['U'], "puts".toList, by decide, by decide⟩), ?_⟩
    exact List.forall_mem_singleton.mpr (.inl rfl)
  have refused : ¬IsAccepted "zz T bad".toList := by
    intro accepted
    have error : listedSymbol 4 "zz T bad".toList = .error (.badAddress 4 "zz") := by decide
    rcases listedSymbol_of_isAccepted accepted 4 with ⟨listed, -⟩ | ⟨_, _, -, listed⟩
    · cases error.symm.trans listed
    · cases error.symm.trans listed
  have split : lines listing = before ++ "zz T bad".toList :: ["2000 T late".toList] := by decide
  obtain ⟨-, stops, -⟩ := addListing_commits_accepted .empty listing
  obtain ⟨whole, stopped⟩ := stops before _ _ split accepted refused
  obtain ⟨completes, -, -⟩ := addListing_commits_accepted .empty (unlines before)
  exact ⟨(completes (by rwa [whole])).1, stopped⟩

end GuestProbe
