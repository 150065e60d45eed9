import GuestProbe.Proofs.CommandLine.Arguments
import GuestProbe.Proofs.CommandLine.Session
import GuestProbe.Proofs.Memory.Images
import GuestProbe.Proofs.Symbols.Refusal

/-! # What sessions are set up from

A session goes through registers, image and listing in this order, and the first of them that is not
right ends it before any expression is evaluated (`FirstFailure`). If all are right (`Ready`), every
expression is evaluated against the machine that they describe (`IsSetUp`), whether the address
space can be reserved for the image or not (`run_all_or_nothing`).
-/

namespace GuestProbe.CommandLine

open Text

/-! ## Descriptions of sessions -/

/-- The name is that of a register. -/
def IsRegisterName (name : String) : Prop :=
  ∃ register : Register, register.name = name

/-- The lines of the listing of a session. Without a listing there are none. -/
inductive ListedLines (options : Options) (files : FileReader) : List (List Char) → Prop where
  | absent (none : options.listing = none) : ListedLines options files []
  | present {path : String} {listing : List Char} (given : options.listing = some path)
      (read : files path = .ok (encode listing)) : ListedLines options files (lines listing)

section Description

variable (options : Options) (files : FileReader)

def RegistersReady : Prop :=
  ∀ assignment ∈ options.registers, IsRegisterName assignment.1

def ImageReady : Prop :=
  ∀ path ∈ options.image, ∃ image, files path = .ok image ∧ image ≠ []

def ListingReady : Prop :=
  ∃ listed, ListedLines options files listed ∧ ∀ line ∈ listed, IsAccepted line

/-- Everything that a session is set up from is right. -/
structure Ready : Prop where
  registers : RegistersReady options
  image : ImageReady options files
  listing : ListingReady options files

/-- The first thing that is not right in what a session is set up from, with the complaint about
it. -/
inductive FirstFailure : String → Prop where
  | unknownRegister {before after : List (String × UInt32)} {name : String} {value : UInt32}
      (split : options.registers = before ++ (name, value) :: after)
      (known : ∀ assignment ∈ before, IsRegisterName assignment.1)
      (unknown : ¬IsRegisterName name) : FirstFailure ("unknown register '" ++ name ++ "'")
  | unreadableImage {path reason : String} (registers : RegistersReady options)
      (given : options.image = some path) (failed : files path = .error reason) :
      FirstFailure reason
  | emptyImage {path : String} (registers : RegistersReady options)
      (given : options.image = some path) (nothing : files path = .ok []) :
      FirstFailure MappingError.empty.message
  | unreadableListing {path reason : String} (registers : RegistersReady options)
      (image : ImageReady options files) (given : options.listing = some path)
      (failed : files path = .error reason) : FirstFailure reason
  | malformedListing {path : String} {bytes : List UInt8} (registers : RegistersReady options)
      (image : ImageReady options files) (given : options.listing = some path)
      (read : files path = .ok bytes) (malformed : ∀ text, bytes ≠ encode text) :
      FirstFailure encodingError
  | refusedLine {before after : List (List Char)} {line : List Char}
      (registers : RegistersReady options) (image : ImageReady options files)
      (listed : ListedLines options files (before ++ line :: after))
      (accepted : ∀ earlier ∈ before, IsAccepted earlier) (refused : ¬IsAccepted line) :
      FirstFailure (refusal (before.length + 1) line).message

/-- The memory of a session: the image at the base address in a memory that was blank, or a memory
without any bytes. -/
inductive HasImage (host : Host) : Memory → Prop where
  | absent (none : options.image = none) : HasImage host (.array #[])
  | present {path : String} {image : List UInt8} {memory : Memory}
      (given : options.image = some path) (read : host.files path = .ok image)
      (mapped : host.imageMemory.ImageMapped memory options.base image.toArray path) :
      HasImage host memory

/-- The last of the assignments to the name gives it the value. -/
def LastAssigned (assignments : List (String × UInt32)) (name : String) (value : UInt32) : Prop :=
  ∃ before after, assignments = before ++ (name, value) :: after ∧
    ∀ later ∈ after, later.1 ≠ name

/-- The word that a name has by assignments and, if there is none to it, by the lines of a
listing. -/
inductive HasWord (assignments : List (String × UInt32)) (listed : List (List Char))
    (name : String) : Option UInt32 → Prop where
  | assigned {value : UInt32} (last : LastAssigned assignments name value) :
      HasWord assignments listed name (some value)
  | listed {address : UInt32} (unassigned : ∀ assignment ∈ assignments, assignment.1 ≠ name)
      (last : LastDefines listed name address) : HasWord assignments listed name (some address)
  | unknown (unassigned : ∀ assignment ∈ assignments, assignment.1 ≠ name)
      (undefined : ∀ line ∈ listed, ∀ address, ¬Defines line name address) :
      HasWord assignments listed name none

/-- Writes registers from left to right. -/
def writeAll (registers : RegisterFile) (assignments : List (Register × UInt32)) : RegisterFile :=
  assignments.foldl (fun changed assignment => changed.write assignment.1 assignment.2) registers

/-- The machine is what the options and the files describe. -/
structure IsSetUp (host : Host) (machine : Machine) : Prop where
  registers : ∃ assignments : List (Register × UInt32),
    options.registers = assignments.map (Prod.map Register.name id) ∧
      machine.registers = writeAll (.initial options.base 0) assignments
  memory : HasImage options host machine.memory
  symbols : ∃ listed, ListedLines options host.files listed ∧
    ∀ name, HasWord options.symbols listed name (machine.symbols.resolve? name)
  lenient : machine.lenient = options.lenient

end Description

/-- All elements have a property, or one is the first that does not have it. -/
theorem forall_or_exists_first_not {Element : Type} (property : Element → Prop)
    (elements : List Element) :
    (∀ element ∈ elements, property element) ∨ ∃ before element after,
      elements = before ++ element :: after ∧ (∀ earlier ∈ before, property earlier) ∧
        ¬property element := by
  induction elements with
  | nil => exact .inl fun element member => absurd member List.not_mem_nil
  | cons first rest ih =>
    by_cases holds : property first
    · rcases ih with all | ⟨before, element, after, rfl, earlier, fails⟩
      · exact .inl (List.forall_mem_cons.mpr ⟨holds, all⟩)
      · exact .inr ⟨first :: before, element, after, rfl,
          List.forall_mem_cons.mpr ⟨holds, earlier⟩, fails⟩
    · exact .inr ⟨[], first, rest, rfl, fun earlier member => absurd member List.not_mem_nil, holds⟩

section Stages

variable {options : Options} {files : FileReader} {host : Host}

/-! ## Registers -/

theorem exists_registers_of_known {assignments : List (String × UInt32)}
    (known : ∀ assignment ∈ assignments, IsRegisterName assignment.1) :
    ∃ named : List (Register × UInt32), assignments = named.map (Prod.map Register.name id) := by
  induction assignments with
  | nil => exact ⟨[], rfl⟩
  | cons first rest ih =>
    obtain ⟨⟨register, name⟩, later⟩ := List.forall_mem_cons.mp known
    obtain ⟨named, rfl⟩ := ih later
    exact ⟨(register, first.2) :: named, by rw [List.map_cons, Prod.map_apply, name]; rfl⟩

theorem setRegisters_append (registers : RegisterFile) (named : List (Register × UInt32))
    (rest : List (String × UInt32)) :
    setRegisters registers (named.map (Prod.map Register.name id) ++ rest) =
      setRegisters (writeAll registers named) rest := by
  induction named generalizing registers with
  | nil => rfl
  | cons first named ih =>
    rw [List.map_cons, List.cons_append, Prod.map_apply, setRegisters, RegisterFile.writeNamed?,
      Register.ofName?_name]
    exact ih (registers.write first.1 first.2)

theorem setRegisters_of_unknown (registers : RegisterFile)
    {before : List (String × UInt32)} (known : ∀ assignment ∈ before, IsRegisterName assignment.1)
    {name : String} (unknown : ¬IsRegisterName name) (value : UInt32)
    (after : List (String × UInt32)) :
    setRegisters registers (before ++ (name, value) :: after) =
      .error ("unknown register '" ++ name ++ "'") := by
  obtain ⟨named, rfl⟩ := exists_registers_of_known known
  have missing : Register.ofName? name = none :=
    List.find?_eq_none.mpr fun register _ same => unknown ⟨register, beq_iff_eq.mp same⟩
  rw [setRegisters_append, setRegisters, RegisterFile.writeNamed?, missing]
  rfl

/-! ## Images -/

theorem loadSessionImage_of_ready (ready : ImageReady options host.files)
    (registers : RegisterFile) :
    ∃ memory, (loadSessionImage options host registers).outcome = .ok (.initial registers memory) ∧
      HasImage options host memory := by
  cases given : options.image with
  | none =>
    rw [loadSessionImage_of_absent given]
    exact ⟨_, rfl, .absent given⟩
  | some path =>
    obtain ⟨image, read, more⟩ := ready path given
    have size : image.toArray.size ≠ 0 := by simpa using more
    have asks : ¬(MappingCall.image options.base image.toArray path).IsEmpty := size
    have free : host.imageMemory.mappings = [] := by
      rw [Host.imageMemory]
      split <;> rfl
    have loaded := (Machine.initial registers host.imageMemory).loadImage_eq options.base
      image.toArray path
    rw [Memory.perform_of_free asks (by rw [Machine.initial, free]; rfl)] at loaded
    have mapped := host.imageMemory.imageMapped_extended options.base path size
    rw [loadSessionImage_of_bytes given read, loaded]
    exact ⟨_, rfl, .present given read mapped⟩

/-! ## Symbols -/

theorem resolve?_insertAll_of_unassigned (symbols : SymbolTable)
    {assignments : List (String × UInt32)} {name : String}
    (unassigned : ∀ assignment ∈ assignments, assignment.1 ≠ name) :
    (symbols.insertAll assignments).resolve? name = symbols.resolve? name := by
  induction assignments generalizing symbols with
  | nil => rfl
  | cons first rest ih =>
    obtain ⟨here, later⟩ := List.forall_mem_cons.mp unassigned
    exact (ih (symbols.insert first.1 first.2) later).trans
      ((symbols.resolve?_insert ..).trans (if_neg here))

theorem resolve?_insertAll_of_lastAssigned (symbols : SymbolTable)
    {assignments : List (String × UInt32)} {name : String} {value : UInt32}
    (last : LastAssigned assignments name value) :
    (symbols.insertAll assignments).resolve? name = some value := by
  obtain ⟨before, after, rfl, others⟩ := last
  rw [SymbolTable.insertAll, List.foldl_append, List.foldl_cons, ← SymbolTable.insertAll,
    ← SymbolTable.insertAll]
  rw [resolve?_insertAll_of_unassigned _ others, SymbolTable.resolve?_insert, if_pos rfl]

theorem lastAssigned_or_unassigned (assignments : List (String × UInt32)) (name : String) :
    (∃ value, LastAssigned assignments name value) ∨
      ∀ assignment ∈ assignments, assignment.1 ≠ name := by
  rcases forall_or_exists_first_not (fun assignment : String × UInt32 => assignment.1 ≠ name)
    assignments.reverse with none | ⟨after, ⟨other, value⟩, before, split, others, same⟩
  · exact .inr fun assignment member => none assignment (List.mem_reverse.mpr member)
  · obtain rfl : other = name := not_not.mp same
    refine .inl ⟨value, before.reverse, after.reverse, ?_, fun later member =>
      others later (List.mem_reverse.mp member)⟩
    rw [← List.reverse_reverse assignments, split]
    simp

/-- Assignments go before the lines of a listing. -/
theorem hasWord_insertAll {table : SymbolTable} {listed : List (List Char)}
    (defined : ∀ name address, LastDefines listed name address →
      table.resolve? name = some address)
    (undefined : ∀ name, (∀ line ∈ listed, ∀ address, ¬Defines line name address) →
      table.resolve? name = none)
    (assignments : List (String × UInt32)) (name : String) :
    HasWord assignments listed name ((table.insertAll assignments).resolve? name) := by
  rcases lastAssigned_or_unassigned assignments name with ⟨value, last⟩ | unassigned
  · rw [resolve?_insertAll_of_lastAssigned table last]
    exact .assigned last
  · rw [resolve?_insertAll_of_unassigned table unassigned]
    rcases lastDefines_or_undefined listed name with ⟨address, last⟩ | none
    · rw [defined name address last]
      exact .listed unassigned last
    · rw [undefined name none]
      exact .unknown unassigned none

/-- A listing of accepted lines has a table, from which the assignments go on. -/
theorem readSessionListing_of_ready (ready : ListingReady options host.files) :
    ∃ table listed, (readSessionListing options host).outcome = .ok table ∧
      ListedLines options host.files listed ∧
      ∀ name, HasWord options.symbols listed name
        ((table.insertAll options.symbols).resolve? name) := by
  obtain ⟨listed, isListed, accepted⟩ := ready
  cases isListed with
  | absent none =>
    have defined : ∀ name address, LastDefines [] name address →
        SymbolTable.empty.resolve? name = some address := by
      rintro name address ⟨before, line, after, split, -⟩
      cases before <;> cases split
    refine ⟨.empty, [], ?_, .absent none,
      hasWord_insertAll defined (fun name _ => SymbolTable.resolve?_empty name) _⟩
    rw [readSessionListing_of_absent none]
  | @present path listing given read =>
    have complete := SymbolTable.empty.addLines_of_isAccepted 0 1 accepted
    have table : SymbolTable.empty.addLines 0 1 (lines listing) =
      ((SymbolTable.empty.addListing listing).1, .ok _) := Prod.ext rfl complete
    have undefined : ∀ name, (∀ line ∈ lines listing, ∀ address, ¬Defines line name address) →
        (SymbolTable.empty.addListing listing).1.resolve? name = none := fun name none =>
      (SymbolTable.resolve?_addLines_of_undefined table none).trans (SymbolTable.resolve?_empty name)
    refine ⟨_, _, ?_, .present given read, hasWord_insertAll
      (fun name address => SymbolTable.resolve?_addLines table) undefined _⟩
    rw [readSessionListing_of_accepted given read table]

/-! ## All stages -/

/-- If all registers are known, the image and the listing come after the writes to them. -/
theorem setUp_of_registersReady (ready : RegistersReady options) (host : Host) :
    ∃ named : List (Register × UInt32),
      options.registers = named.map (Prod.map Register.name id) ∧
        (setUp options host).outcome = (do
          let loaded ← (loadSessionImage options host
            (writeAll (.initial options.base 0) named)).outcome
          let listed ← (readSessionListing options host).outcome
          pure { loaded with
            symbols := listed.insertAll options.symbols
            lenient := options.lenient }) := by
  obtain ⟨named, split⟩ := exists_registers_of_known ready
  have written := setRegisters_append (.initial options.base 0) named []
  rw [List.append_nil, ← split] at written
  refine ⟨named, split, ?_⟩
  rw [outcome_setUp, written]
  rfl

theorem setUp_of_image_error {reason : String} (registers : RegistersReady options)
    (failed : ∀ changed, (loadSessionImage options host changed).outcome = .error reason) :
    (setUp options host).outcome = .error reason := by
  obtain ⟨named, -, same⟩ := setUp_of_registersReady registers host
  rw [same, failed]
  rfl

theorem setUp_of_listing_error {reason : String} (registers : RegistersReady options)
    (image : ImageReady options host.files)
    (failed : (readSessionListing options host).outcome = .error reason) :
    (setUp options host).outcome = .error reason := by
  obtain ⟨named, -, same⟩ := setUp_of_registersReady registers host
  obtain ⟨memory, loaded, -⟩ := loadSessionImage_of_ready image
    (writeAll (.initial options.base 0) named)
  rw [same, loaded, failed]
  rfl

theorem setUp_of_firstFailure {reason : String} (failure : FirstFailure options host.files reason) :
    (setUp options host).outcome = .error reason := by
  cases failure with
  | unknownRegister split known unknown =>
    rw [outcome_setUp, split, setRegisters_of_unknown _ known unknown]
    rfl
  | unreadableImage registers given failed =>
    apply setUp_of_image_error registers
    intro changed
    rw [loadSessionImage_of_error given failed]
  | emptyImage registers given nothing =>
    apply setUp_of_image_error registers
    intro changed
    rw [loadSessionImage_of_bytes given nothing]
    rfl
  | unreadableListing registers image given failed =>
    apply setUp_of_listing_error registers image
    rw [readSessionListing_of_error given failed]
  | @malformedListing path bytes registers image given read malformed =>
    apply setUp_of_listing_error registers image
    have refused : decode? bytes = none :=
      Option.eq_none_iff_forall_ne_some.mpr fun text decoded =>
        malformed text ((decode?_eq_some_iff bytes text).mp decoded)
    rw [readSessionListing_of_malformed given read refused]
  | @refusedLine before after line registers image listed accepted refused =>
    apply setUp_of_listing_error registers image
    -- A session without a listing has no line to refuse.
    generalize split : before ++ line :: after = parts at listed
    cases listed with
    | absent none => cases before <;> cases split
    | @present path listing given read =>
      have stopped := SymbolTable.empty.addLines_of_refused 0 1 accepted refused after
      rw [split, Nat.add_comm 1] at stopped
      rw [readSessionListing_of_refused given read stopped]

theorem setUp_of_ready (ready : Ready options host.files) :
    ∃ machine, (setUp options host).outcome = .ok machine ∧ IsSetUp options host machine := by
  obtain ⟨named, split, same⟩ := setUp_of_registersReady ready.registers host
  obtain ⟨memory, loaded, hasImage⟩ := loadSessionImage_of_ready ready.image
    (writeAll (.initial options.base 0) named)
  obtain ⟨table, listed, read, isListed, words⟩ := readSessionListing_of_ready ready.listing
  refine ⟨⟨writeAll (.initial options.base 0) named, memory, table.insertAll options.symbols,
    options.lenient⟩, ?_, ⟨named, split, rfl⟩, hasImage, ⟨listed, isListed, words⟩, rfl⟩
  rw [same, loaded, read]
  rfl

theorem imageReady_or_firstFailure (files : FileReader) (registers : RegistersReady options) :
    ImageReady options files ∨ ∃ reason, FirstFailure options files reason := by
  cases given : options.image with
  | none => exact .inl fun path some => nomatch given.symm.trans some
  | some path =>
    cases read : files path with
    | error reason => exact .inr ⟨_, .unreadableImage registers given read⟩
    | ok image =>
      by_cases nothing : image = []
      · exact .inr ⟨_, .emptyImage registers given (nothing ▸ read)⟩
      · refine .inl fun other same => ?_
        cases given.symm.trans same
        exact ⟨image, read, nothing⟩

theorem listingReady_or_firstFailure (registers : RegistersReady options)
    (image : ImageReady options files) :
    ListingReady options files ∨ ∃ reason, FirstFailure options files reason := by
  have lines {listed : List (List Char)} (isListed : ListedLines options files listed) :
      ListingReady options files ∨ ∃ reason, FirstFailure options files reason := by
    rcases forall_or_exists_first_not IsAccepted listed with
      accepted | ⟨before, line, after, rfl, accepted, refused⟩
    · exact .inl ⟨listed, isListed, accepted⟩
    · exact .inr ⟨_, .refusedLine registers image isListed accepted refused⟩
  cases given : options.listing with
  | none => exact lines (.absent given)
  | some path =>
    cases read : files path with
    | error reason => exact .inr ⟨_, .unreadableListing registers image given read⟩
    | ok bytes =>
      by_cases malformed : ∀ text, bytes ≠ encode text
      · exact .inr ⟨_, .malformedListing registers image given read malformed⟩
      · obtain ⟨text, same⟩ := not_forall_not.mp malformed
        exact lines (.present given (same ▸ read))

/-- Nothing else can be wrong with a session. -/
theorem ready_or_firstFailure (options : Options) (files : FileReader) :
    Ready options files ∨ ∃ reason, FirstFailure options files reason := by
  rcases forall_or_exists_first_not (fun assignment => IsRegisterName assignment.1)
    options.registers with registers | ⟨before, ⟨name, value⟩, after, split, known, unknown⟩
  · rcases imageReady_or_firstFailure files registers with image | failure
    · rcases listingReady_or_firstFailure registers image with listing | failure
      · exact .inl ⟨registers, image, listing⟩
      · exact .inr failure
    · exact .inr failure
  · exact .inr ⟨_, .unknownRegister split known unknown⟩

end Stages

/-! ## Outcomes -/

/-- The expressions of a session, and whether its input stops being text before the end. -/
def heldExpressions (options : Options) (input : List UInt8) : List String × Bool :=
  if options.expressions.isEmpty then lineExpressions (byteLines input)
  else (options.expressions, false)

/-- All expressions that are held were evaluated against the machine, and nothing else. -/
structure Evaluates (options : Options) (host : Host) (machine : Machine) (style : ReportStyle)
    (held : List String × Bool) (transcript : Transcript) : Prop where
  output : transcript.output = dumped options machine ++
    String.join (held.1.filterMap (valueLine? machine options.format))
  errors : transcript.errors = setUpEntries options host ++
    held.1.flatMap (evaluationEntries machine style) ++
      if held.2 then [.text (exitLine encodingError)] else []
  texts : transcript.texts = held.1.filterMap (failureReport? machine style) ++
    if held.2 then [exitLine encodingError] else []
  status_eq_zero_iff : transcript.status = 0 ↔
    held.2 = false ∧ ∀ expression ∈ held.1, ∃ value, machine.evaluate expression = .ok value
  status_le : transcript.status ≤ 1

/-- Evaluating what is held, with the complaint about an input that stops being text at the end. -/
theorem evaluates_held (options : Options) (host : Host) (machine : Machine) (style : ReportStyle)
    (held : List String × Bool) :
    Evaluates options host machine style held
      (Transcript.append ⟨0, dumped options machine, setUpEntries options host⟩
        (let transcript := evaluateAll machine options.format style held.1
        if held.2 then transcript.append ⟨1, "", [.text (exitLine encodingError)]⟩
        else transcript)) := by
  obtain ⟨zero, bound⟩ := status_evaluateAll machine options.format style held.1
  obtain ⟨expressions, malformed⟩ := held
  refine ⟨?output, ?errors, ?texts, ?zero, ?bound⟩
  case output => cases malformed <;> simp [Transcript.append, evaluateAll_eq]
  case errors => cases malformed <;> simp [Transcript.append, evaluateAll_eq]
  case texts =>
    have reports := texts_evaluationEntries machine style expressions
    cases malformed <;>
      simp [Transcript.append, Transcript.texts, evaluateAll_eq, texts_setUpEntries, reports,
        ErrorEntry.text?]
  case zero =>
    cases malformed with
    | false => simpa [Transcript.append] using zero
    | true => simp [Transcript.append]
  case bound => cases malformed <;> simpa [Transcript.append] using bound

theorem evaluates_sessionOf {options : Options} {host : Host} {machine : Machine}
    (ready : (setUp options host).outcome = .ok machine) (input : List UInt8)
    (style : ReportStyle) :
    Evaluates options host machine style (heldExpressions options input)
      (sessionOf options host input style) := by
  have evaluates := evaluates_held options host machine style (heldExpressions options input)
  rw [sessionOf_of_setUp ready]
  rw [heldExpressions] at evaluates ⊢
  split
  · next none =>
    rw [if_pos none] at evaluates
    exact evaluates
  · next some =>
    rw [if_neg some] at evaluates
    exact evaluates

/-! ## Sessions -/

/-- The first of the registers, the image and the listing that is not right ends a session before
anything is printed or evaluated, and the session complains about it only. If all are right, every
expression is evaluated against the machine that they describe. This holds whether the address space
can be reserved for the image or not. The registers and symbols are assigned in the order of their
options, and a command line whose arguments of each sort are the same leaves the same behind. A
logger that writes nothing for the records of the session leaves only its texts. -/
theorem run_all_or_nothing {commandLine : List String} {options : Options}
    (parsed : Options.parse commandLine = .ok options) (host : Host) (input : List UInt8)
    (style : ReportStyle) :
    let transcript := session commandLine host input style
    (Ready options host.files ∨ ∃ reason, FirstFailure options host.files reason) ∧
    (∀ reason, FirstFailure options host.files reason →
      ¬Ready options host.files ∧ transcript.texts = [exitLine reason] ∧
      transcript = ⟨1, "", setUpEntries options host ++ [.text (exitLine reason)]⟩) ∧
    (Ready options host.files → ∃ machine, IsSetUp options host machine ∧
      Evaluates options host machine style (heldExpressions options input) transcript) ∧
    (∀ logger : Logger, (∀ record, .record record ∈ transcript.errors → logger record = "") →
      transcript.printed logger =
        ⟨transcript.status, transcript.output, String.join transcript.texts⟩) ∧
    ∃ arguments, readArguments commandLine = .ok arguments ∧
      (valuesOf .register arguments).map readAssignment = options.registers.map .ok ∧
      (valuesOf .symbol arguments).map readAssignment = options.symbols.map .ok ∧
      ∀ otherLine others, readArguments otherLine = .ok others → Interleaved arguments others →
        session otherLine host input style = transcript := by
  intro transcript
  have started : transcript = sessionOf options host input style :=
    session_of_parse parsed host input style
  refine ⟨ready_or_firstFailure options host.files, ?failure, ?ready, ?printed, ?arguments⟩
  case failure =>
    intro reason failure
    have failed := setUp_of_firstFailure failure
    have stopped : transcript =
        ⟨1, "", setUpEntries options host ++ [.text (exitLine reason)]⟩ := by
      simp only [started, sessionOf, failed]
      rfl
    refine ⟨?_, ?_, stopped⟩
    · intro ready
      obtain ⟨machine, done, -⟩ := setUp_of_ready ready
      cases failed.symm.trans done
    · rw [Transcript.texts, stopped, List.filterMap_append, texts_setUpEntries]
      rfl
  case ready =>
    intro ready
    obtain ⟨machine, done, isSetUp⟩ := setUp_of_ready ready
    rw [started]
    exact ⟨machine, isSetUp, evaluates_sessionOf done input style⟩
  case printed =>
    intro logger silent
    rw [Transcript.printed, printEntries_of_silent silent]
    rfl
  case arguments =>
    obtain ⟨arguments, read, done⟩ := Options.exists_of_parse parsed
    have described := Options.readFrom_of_ofArguments done
    refine ⟨arguments, read, described.registers, described.symbols, ?_⟩
    intro otherLine others readOther same
    have parsedOther : Options.parse otherLine = Options.parse commandLine := by
      rw [Options.parse, Options.parse, read, readOther]
      change (Options.ofArguments others).mapError _ = (Options.ofArguments arguments).mapError _
      rw [Options.ofArguments_of_interleaved same]
    rw [session, parsedOther, ← session]

/-- The last of two writes to parts of `eax` gives `al`, and the assignment to `main` goes before its
line in the listing, also with the arguments in another order. An image without bytes is complained
about before a listing that cannot be read. -/
theorem run_all_or_nothing_of_reordered :
    let commandLine := ["--reg", "al=2", "--sym", "main=0x20", "--image", "image",
      "--reg", "eax=0x103", "--symbols", "listing", "main+$al"]
    let reordered := ["main+$al", "--symbols=listing", "--reg=al=2", "--image=image",
      "--reg=eax=0x103", "--sym=main=0x20"]
    let files : FileReader := fun path =>
      .ok (if path = "listing" then encode "10 T main\n".toList else [7])
    let broken : FileReader := fun path => if path = "listing" then .error "missing" else .ok []
    run commandLine files [] .plain = ⟨0, "0x00000023  35\n", ""⟩ ∧
      run reordered files [] .plain = ⟨0, "0x00000023  35\n", ""⟩ ∧
      run commandLine broken [] .plain =
        ⟨1, "", exitLine "attempt to create an empty mapping"⟩ := by
  intro commandLine reordered files broken
  let options : Options :=
    ⟨some "image", Options.defaultBase, [("al", 2), ("eax", 0x103)], [("main", 0x20)],
      some "listing", false, .both, false, ["main+$al"]⟩
  have parsed : Options.parse commandLine = .ok options := rfl
  have sum : run commandLine files [] .plain = ⟨0, "0x00000023  35\n", ""⟩ := by decide +kernel
  obtain ⟨-, -, -, -, arguments, read, -, -, others⟩ :=
    run_all_or_nothing parsed (.ofFiles files) [] .plain
  obtain ⟨-, failures, -, printed, -⟩ := run_all_or_nothing parsed (.ofFiles broken) [] .plain
  refine ⟨sum, ?_, ?_⟩
  · obtain rfl : _ = arguments := Except.ok.inj read
    rw [run, others reordered _ rfl ?_, ← run, sum]
    intro sort
    rcases sort with (_ | _ | _ | _ | _ | _) | (_ | _) | _ <;> rfl
  · have registers : RegistersReady options :=
      List.forall_mem_cons.mpr ⟨⟨.al, rfl⟩, List.forall_mem_singleton.mpr ⟨.eax, rfl⟩⟩
    obtain ⟨-, texts, stopped⟩ := failures _ (.emptyImage registers rfl rfl)
    have silent := printed .silent fun _ _ => rfl
    rw [texts, stopped] at silent
    exact silent

end GuestProbe.CommandLine
