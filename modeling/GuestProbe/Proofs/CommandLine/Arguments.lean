import GuestProbe.CommandLine.Options
import GuestProbe.Traced

/-! # What arguments describe

The options that are read from arguments are what the arguments of each sort say
(`Options.readFrom_of_ofArguments`): assignments keep their order, an option that is given has a
value, and only registers and symbols can be given more than once. How arguments of different sorts
are mixed makes no difference (`Options.ofArguments_of_interleaved`).
-/

namespace GuestProbe.CommandLine

/-! ## Arguments of the same sort -/

/-- The arguments of each sort are the same, in the same order. -/
def Interleaved (arguments others : List Argument) : Prop :=
  ∀ sort, arguments.filter (·.sort = sort) = others.filter (·.sort = sort)

section Interleaving

variable {arguments others : List Argument}

theorem Interleaved.filterMap {Value : Type} (same : Interleaved arguments others)
    (sort : ArgumentSort) {read : Argument → Option Value}
    (only : ∀ argument, argument.sort ≠ sort → read argument = none) :
    arguments.filterMap read = others.filterMap read := by
  have restricted (list : List Argument) :
      (list.filter (·.sort = sort)).filterMap read = list.filterMap read := by
    rw [List.filterMap_filter]
    congr 1
    funext argument
    split
    · rfl
    · next other => exact (only argument (by simpa using other)).symm
  rw [← restricted arguments, same sort, restricted]

theorem Interleaved.valuesOf (same : Interleaved arguments others) (option : OptionName) :
    valuesOf option arguments = valuesOf option others := by
  refine same.filterMap (.option option) fun argument other => ?_
  cases argument with
  | option name value =>
    cases value with
    | none => rfl
    | some text => exact if_neg (by rintro rfl; exact other rfl)
  | switch switch => rfl
  | expression text => rfl

theorem Interleaved.countOf (same : Interleaved arguments others) (sort : ArgumentSort) :
    countOf sort arguments = countOf sort others := by
  rw [CommandLine.countOf, CommandLine.countOf, List.countP_eq_length_filter,
    List.countP_eq_length_filter, same]

/-- How arguments of different sorts are mixed makes no difference. -/
theorem Options.ofArguments_of_interleaved (same : Interleaved arguments others) :
    Options.ofArguments arguments = Options.ofArguments others := by
  simp only [Options.ofArguments, readValues, readSwitch, same.valuesOf, same.countOf]
  rw [same.filterMap .expression]
  intro argument other
  cases argument with
  | expression text => exact absurd rfl other
  | _ => rfl

end Interleaving

/-! ## Values -/

theorem eq_ok_of_mapError {Failure Other Value : Type} {change : Failure → Other}
    {outcome : Except Failure Value} {value : Value}
    (done : outcome.mapError change = .ok value) : outcome = .ok value := by
  cases outcome with
  | error failure => cases done
  | ok found =>
    cases done
    rfl

theorem map_of_mapM_eq_ok {Failure Text Value : Type} {read : Text → Except Failure Value}
    {texts : List Text} {values : List Value} (done : texts.mapM read = .ok values) :
    texts.map read = values.map .ok := by
  induction texts generalizing values with
  | nil =>
    cases done
    rfl
  | cons text rest ih =>
    rw [List.mapM_cons] at done
    obtain ⟨value, here, done⟩ := exists_of_bind_eq_ok done
    obtain ⟨others, later, same⟩ := exists_of_bind_eq_ok done
    cases same
    rw [List.map_cons, List.map_cons, here, ih later]

/-- The first of the values that are read, or the default if there is none. -/
theorem default_or_exists_read {Failure Text Value : Type} {read : Text → Except Failure Value}
    {texts : List Text} {values : List Value} (same : texts.map read = values.map .ok)
    (default : Value) :
    texts = [] ∧ values.head?.getD default = default ∨
      ∃ text ∈ texts, read text = .ok (values.head?.getD default) := by
  cases texts with
  | nil =>
    cases values with
    | nil => exact .inl ⟨rfl, rfl⟩
    | cons value rest => cases same
  | cons text rest =>
    cases values with
    | nil => cases same
    | cons value others => exact .inr ⟨text, List.mem_cons_self, (List.cons.inj same).1⟩

/-- The option has a value if it is given, and is given once unless it can be repeated. -/
structure IsGivenWell (option : OptionName) (arguments : List Argument) : Prop where
  valued : valuesOf option arguments = [] → countOf (.option option) arguments = 0
  single : option.isRepeatable = false → countOf (.option option) arguments ≤ 1

section Values

variable {arguments : List Argument}

theorem of_readValues_eq_ok {Value : Type} {option : OptionName}
    {read : String → Except String Value} {values : List Value}
    (done : readValues option read arguments = .ok values) :
    (valuesOf option arguments).map read = values.map .ok ∧ IsGivenWell option arguments := by
  simp only [readValues] at done
  split at done
  · cases done
  · next valued =>
    split at done
    · cases done
    · next read each =>
      split at done
      · cases done
      · next single =>
        cases done
        refine ⟨map_of_mapM_eq_ok each, ?_, ?_⟩
        · intro none
          simpa [none] using valued
        · intro notRepeatable
          simpa [notRepeatable] using single

theorem countOf_switch_ne_zero_iff (switch : Switch) :
    countOf (.switch switch) arguments ≠ 0 ↔ .switch switch ∈ arguments := by
  rw [countOf, ← Nat.pos_iff_ne_zero, List.countP_pos_iff]
  constructor
  · rintro ⟨argument, member, same⟩
    cases argument with
    | switch other =>
      cases of_decide_eq_true same
      exact member
    | _ => cases of_decide_eq_true same
  · intro member
    exact ⟨_, member, decide_eq_true rfl⟩

theorem of_readSwitch_eq_ok {switch : Switch} {given : Bool}
    (done : readSwitch switch arguments = .ok given) :
    countOf (.switch switch) arguments ≤ 1 ∧ (given = true ↔ .switch switch ∈ arguments) := by
  simp only [readSwitch] at done
  split at done
  · cases done
  · next single =>
    cases done
    rw [bne_iff_ne, countOf_switch_ne_zero_iff]
    exact ⟨Nat.le_of_not_lt single, Iff.rfl⟩

end Values

/-- The options are what the arguments say. -/
structure Options.ReadFrom (options : Options) (arguments : List Argument) : Prop where
  image : (valuesOf .image arguments).head? = options.image
  base : valuesOf .base arguments = [] ∧ options.base = defaultBase ∨
    ∃ text ∈ valuesOf .base arguments, readNumber text.toList = .ok options.base
  listing : (valuesOf .listing arguments).head? = options.listing
  registers : (valuesOf .register arguments).map readAssignment = options.registers.map .ok
  symbols : (valuesOf .symbol arguments).map readAssignment = options.symbols.map .ok
  lenient : options.lenient = true ↔ .switch .lenientSymbols ∈ arguments
  format : valuesOf .format arguments = [] ∧ options.format = .both ∨
    ∃ text ∈ valuesOf .format arguments, ValueFormat.ofName? text = some options.format
  showRegisters : options.showRegisters = true ↔ .switch .infoRegisters ∈ arguments
  given : ∀ option, IsGivenWell option arguments
  switched : ∀ switch, countOf (.switch switch) arguments ≤ 1

theorem Options.readFrom_of_ofArguments {arguments : List Argument} {options : Options}
    (done : Options.ofArguments arguments = .ok options) : options.ReadFrom arguments := by
  rw [Options.ofArguments] at done
  obtain ⟨bases, base, done⟩ := exists_of_bind_eq_ok done
  obtain ⟨registers, register, done⟩ := exists_of_bind_eq_ok done
  obtain ⟨symbols, symbol, done⟩ := exists_of_bind_eq_ok done
  obtain ⟨formats, format, done⟩ := exists_of_bind_eq_ok done
  obtain ⟨images, image, done⟩ := exists_of_bind_eq_ok done
  obtain ⟨listings, listing, done⟩ := exists_of_bind_eq_ok done
  obtain ⟨lenient, isLenient, done⟩ := exists_of_bind_eq_ok done
  obtain ⟨showRegisters, showsRegisters, done⟩ := exists_of_bind_eq_ok done
  cases done
  obtain ⟨baseValues, base⟩ := of_readValues_eq_ok base
  obtain ⟨registerValues, register⟩ := of_readValues_eq_ok register
  obtain ⟨symbolValues, symbol⟩ := of_readValues_eq_ok symbol
  obtain ⟨formatValues, format⟩ := of_readValues_eq_ok format
  obtain ⟨imageValues, image⟩ := of_readValues_eq_ok image
  obtain ⟨listingValues, listing⟩ := of_readValues_eq_ok listing
  obtain ⟨lenientOnce, lenientGiven⟩ := of_readSwitch_eq_ok isLenient
  obtain ⟨registersOnce, registersGiven⟩ := of_readSwitch_eq_ok showsRegisters
  have sameImages := (List.map_inj_right fun _ _ => Except.ok.inj).mp imageValues
  have sameListings := (List.map_inj_right fun _ _ => Except.ok.inj).mp listingValues
  refine ⟨congrArg _ sameImages, ?base, congrArg _ sameListings, registerValues, symbolValues,
    lenientGiven, ?format, registersGiven, ?given, ?switched⟩
  case base =>
    rcases default_or_exists_read baseValues defaultBase with absent | ⟨text, member, read⟩
    · exact .inl absent
    · exact .inr ⟨text, member, eq_ok_of_mapError read⟩
  case format =>
    rcases default_or_exists_read formatValues .both with absent | ⟨text, member, read⟩
    · exact .inl absent
    · refine .inr ⟨text, member, ?_⟩
      cases named : ValueFormat.ofName? text with
      | none =>
        rw [named] at read
        cases read
      | some format =>
        rw [named] at read
        exact congrArg some (Except.ok.inj read)
  case given =>
    intro option
    cases option <;> assumption
  case switched =>
    intro switch
    cases switch <;> assumption

/-- A command line with options has arguments that they are read from. -/
theorem Options.exists_of_parse {commandLine : List String} {options : Options}
    (parsed : Options.parse commandLine = .ok options) :
    ∃ arguments, readArguments commandLine = .ok arguments ∧
      Options.ofArguments arguments = .ok options := by
  obtain ⟨arguments, read, done⟩ := exists_of_bind_eq_ok parsed
  exact ⟨arguments, read, eq_ok_of_mapError done⟩

example : Options.parse ["--format", "dec", "--format", "hex"] =
    .error (.refuses (.repeated "--format <format>")) := rfl

end GuestProbe.CommandLine
