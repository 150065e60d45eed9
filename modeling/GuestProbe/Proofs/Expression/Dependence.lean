import GuestProbe.Proofs.Expression.Reduction

/-! # What an evaluation depends on

Two environments that give the same answers for the registers and symbols that a sequence names
evaluate it in lockstep, until the first one reads a word that the second one has differently
(`Environment.AgreesOn.reduce`). So the whole run, with all its events, is the same if the words at
the addresses that the first run reads are (`run_depends_on_reads`). These addresses are themselves
results of the run: the condition is carried along as one on the events recorded so far
(`Traced.SameWhile`).
-/

namespace GuestProbe

namespace Traced

variable {Event Failure Value Result : Type} {admits : Event → Prop}
  {first second : Traced Event Failure Value}

/-- Two computations are the same, events included, as long as all events of the first one are
admitted. -/
def SameWhile (admits : Event → Prop) (first second : Traced Event Failure Value) : Prop :=
  (∀ event ∈ first.events, admits event) → first = second

namespace SameWhile

theorem refl (admits : Event → Prop) (computation : Traced Event Failure Value) :
    SameWhile admits computation computation :=
  fun _ => rfl

theorem bind {next other : Value → Traced Event Failure Result}
    (same : SameWhile admits first second)
    (sameNext : ∀ value, SameWhile admits (next value) (other value)) :
    SameWhile admits (first >>= next) (second >>= other) := by
  intro admitted
  rw [events_bind] at admitted
  obtain rfl := same fun event member => admitted event (List.mem_append_left _ member)
  rcases first with ⟨events, failure | value⟩
  · rfl
  · have sameAfter : next value = other value :=
      sameNext value fun event member => admitted event (List.mem_append_right _ member)
    change andThen _ next = andThen _ other
    simp only [andThen, sameAfter]

end SameWhile

end Traced

namespace Environment

variable {first second environment : Environment} {tokens : List Token}

/-- Two environments give the same answers for all that the tokens name. -/
structure AgreesOn (first second : Environment) (tokens : List Token) : Prop where
  lenient : first.lenient = second.lenient
  registers : ∀ token ∈ tokens, token.kind = .register →
    first.register token.text = second.register token.text
  symbols : ∀ token ∈ tokens, token.kind = .symbol →
    first.symbol token.text = second.symbol token.text

/-- If the event is a read, both environments have the same word at the address, or the same
error. -/
def ReadsAlike (first second : Environment) (event : EvaluationEvent) : Prop :=
  ∀ address, event = .read address → first.memory address 4 .ds = second.memory address 4 .ds

namespace AgreesOn

theorem mono {part : List Token} (agrees : AgreesOn first second tokens)
    (among : ∀ token ∈ part, token ∈ tokens) : AgreesOn first second part where
  lenient := agrees.lenient
  registers token member := agrees.registers token (among token member)
  symbols token member := agrees.symbols token (among token member)

theorem operand {token : Token} (agrees : AgreesOn first second tokens) (member : token ∈ tokens) :
    first.operand token = second.operand token := by
  cases kind : token.kind with
  | register => simp only [Environment.operand, kind, agrees.registers token member kind]
  | symbol =>
    simp only [Environment.operand, kind, agrees.symbols token member kind, agrees.lenient]
  | _ => simp only [Environment.operand, kind]

end AgreesOn

theorem sameWhile_applyUnary (first second : Environment) (operator : UnaryOperator)
    (word : UInt32) :
    Traced.SameWhile (ReadsAlike first second) (first.applyUnary operator word)
      (second.applyUnary operator word) := by
  cases operator with
  | dereference =>
    intro alike
    have read : EvaluationEvent.read word ∈ (first.applyUnary .dereference word).events := by
      rw [applyUnary, Traced.events_bind]
      exact List.mem_cons_self
    simp only [applyUnary, alike _ read word rfl]
  | negate => exact .refl _ _
  | not => exact .refl _ _

/-- The evaluation of a sequence is the same in both environments, as long as they have the same
words at the addresses that the first one reads. -/
theorem AgreesOn.reduce (agrees : AgreesOn first second tokens) (start : Nat) :
    Traced.SameWhile (ReadsAlike first second) (first.reduce start tokens)
      (second.reduce start tokens) := by
  induction tokens using division_induction generalizing start with
  | step tokens parts =>
    have sameParts : ∀ part ∈ (divide tokens).parts, ∀ start,
        Traced.SameWhile (ReadsAlike first second) (first.reduce start part)
          (second.reduce start part) := fun part member =>
      parts part member (agrees.mono fun token among => mem_of_mem_parts member among)
    have fits := divide_fits tokens
    rw [reduce_eq, reduce_eq]
    refine (Traced.SameWhile.refl _ _).bind fun _ => .bind ?_ fun _ => .refl _ _
    cases divided : divide tokens with
    | nothing => exact .refl _ _
    | operatorless head => exact .refl _ _
    | single token =>
      rw [divided] at fits
      rw [evaluateParts, evaluateParts, agrees.operand (fits ▸ List.mem_cons_self)]
      exact .refl _ _
    | enclosed interior =>
      rw [divided] at sameParts
      exact sameParts interior List.mem_cons_self (start + 1)
    | leading head rest =>
      rw [divided] at sameParts
      simp only [evaluateParts]
      cases head.kind.unaryOperator? with
      | none => exact .refl _ _
      | some unary =>
        exact (sameParts rest List.mem_cons_self (start + 1)).bind
          fun word => sameWhile_applyUnary first second unary word
    | around left operator right =>
      rw [divided] at sameParts
      simp only [evaluateParts]
      refine (sameParts left List.mem_cons_self start).bind fun leftWord => ?_
      refine (sameParts right (by simp [Division.parts]) _).bind fun rightWord => ?_
      exact .refl _ _

theorem AgreesOn.run (agrees : AgreesOn first second tokens) :
    Traced.SameWhile (ReadsAlike first second) (first.run tokens) (second.run tokens) := by
  simp only [Environment.run]
  split
  · exact .refl _ _
  split
  · exact .refl _ _
  · exact agrees.reduce 0

/-! ## Reads -/

theorem read_not_mem_operand (environment : Environment) (token : Token) (address : UInt32) :
    .read address ∉ (environment.operand token).events := by
  rcases environment.events_operand token with none | ⟨name, assumed⟩
  · simp [none]
  · simp [assumed]

theorem read_mem_recorded_iff {start count : Nat} {evaluation : Evaluation UInt32}
    {address : UInt32} :
    .read address ∈ (recorded start count evaluation).events ↔ .read address ∈ evaluation.events := by
  rw [events_recorded]
  cases evaluation.outcome <;> simp

/-- Every read is asked for by a token. -/
theorem exists_dereference_of_read {start : Nat} {address : UInt32}
    (member : .read address ∈ (environment.reduce start tokens).events) :
    ∃ token ∈ tokens, token.kind = .dereference := by
  induction tokens using division_induction generalizing start with
  | step tokens parts =>
    have within : ∀ part ∈ (divide tokens).parts, ∀ start,
        .read address ∈ (environment.reduce start part).events →
          ∃ token ∈ tokens, token.kind = .dereference := by
      intro part isPart start member
      obtain ⟨token, among, asks⟩ := parts part isPart member
      exact ⟨token, mem_of_mem_parts isPart among, asks⟩
    have fits := divide_fits tokens
    rw [reduce_eq, read_mem_recorded_iff] at member
    cases divided : divide tokens with
    | nothing => rw [divided] at member; cases member
    | operatorless first => rw [divided] at member; cases member
    | single token =>
      rw [divided] at member
      exact absurd member (environment.read_not_mem_operand token address)
    | enclosed interior =>
      rw [divided] at member within
      exact within interior List.mem_cons_self _ member
    | leading first rest =>
      rw [divided] at member within fits
      simp only [evaluateParts] at member
      cases stands : first.kind.unaryOperator? with
      | none => rw [stands] at member; cases member
      | some unary =>
        rw [stands] at member
        rcases Traced.mem_events_bind.mp member with inner | ⟨word, -, applied⟩
        · exact within rest List.mem_cons_self _ inner
        rw [events_applyUnary] at applied
        split at applied
        · next isDereference =>
          rw [isDereference] at stands
          exact ⟨first, fits.1 ▸ List.mem_cons_self,
            TokenKind.unaryOperator?_eq_some_iff.mp stands⟩
        · cases applied
    | around left operator right =>
      rw [divided] at member within
      rcases Traced.mem_events_bind.mp member with before | ⟨leftWord, -, member⟩
      · exact within left List.mem_cons_self _ before
      rcases Traced.mem_events_bind.mp member with after | ⟨rightWord, -, applied⟩
      · exact within right (by simp [Division.parts]) _ after
      · split at applied <;> cases applied

theorem exists_dereference_of_run {address : UInt32}
    (member : .read address ∈ (environment.run tokens).events) :
    ∃ token ∈ tokens, token.kind = .dereference := by
  rw [run] at member
  split at member
  · cases member
  split at member
  · cases member
  · exact exists_dereference_of_read member

end Environment

/-- A run depends on the environment only through the answers for the registers and symbols that the
tokens name and the words at the addresses that the run itself reads: another environment with the
same answers gives the same outcome after the same events. Without a dereference among the tokens no
memory makes a difference. -/
theorem run_depends_on_reads {first second : Environment} {tokens : List Token}
    (agrees : first.AgreesOn second tokens) :
    ((∀ address, .read address ∈ (first.run tokens).events →
        first.memory address 4 .ds = second.memory address 4 .ds) →
      first.run tokens = second.run tokens) ∧
    ((∀ token ∈ tokens, token.kind ≠ .dereference) →
      first.run tokens = second.run tokens) := by
  have lockstep : (∀ address, .read address ∈ (first.run tokens).events →
      first.memory address 4 .ds = second.memory address 4 .ds) →
        first.run tokens = second.run tokens := by
    intro alike
    refine agrees.run ?_
    rintro event member address rfl
    exact alike address member
  refine ⟨lockstep, fun noDereference => lockstep ?_⟩
  intro address read
  obtain ⟨token, member, isDereference⟩ := Environment.exists_dereference_of_run read
  exact absurd isDereference (noDereference token member)

/-- The word of `*$eax+main` stays the same if other registers, other symbols and the memory beyond
the word at `$eax` become different. The word of `$eax` is the same over every memory. -/
theorem run_depends_on_reads_of_sum :
    let named : Token := ⟨.register, 0, "eax", 1⟩
    let tokens : List Token :=
      [⟨.dereference, 6, "*", 0⟩, named, ⟨.plus, 4, "+", 5⟩, ⟨.symbol, 0, "main", 6⟩]
    let first : Environment :=
      ⟨fun name => if name = "eax" then some 0x1000 else none,
        fun address _ _ => if address = 0x1000 then .ok 7 else .error (.fault address),
        fun name => if name = "main" then some 2 else none, false⟩
    let second : Environment :=
      ⟨fun name => if name = "eax" then some 0x1000 else some 1,
        fun address _ _ => if address = 0x1000 then .ok 7 else .ok 0,
        fun name => if name = "main" then some 2 else some 3, false⟩
    first.AgreesOn second tokens ∧ (first.run tokens).outcome = .ok 9 ∧
      (second.run tokens).outcome = .ok 9 ∧
      ∀ memory, (Environment.run { second with memory } [named]).outcome = .ok 0x1000 := by
  intro named tokens first second
  have agrees : first.AgreesOn second tokens := by
    constructor
    case lenient => rfl
    case registers => simp [tokens, named, first, second]
    case symbols => simp [tokens, named, first, second]
  have events : (first.run tokens).events = [.entered 0 4, .entered 0 2, .entered 1 1,
      .reduced 1 1 0x1000, .read 0x1000, .reduced 0 2 7, .entered 3 1, .reduced 3 1 2,
      .reduced 0 4 9] := by
    decide +kernel
  have value : (first.run tokens).outcome = .ok 9 := by decide +kernel
  have valueNamed : (first.run [named]).outcome = .ok 0x1000 := by decide +kernel
  obtain ⟨sameOfReads, -⟩ := run_depends_on_reads agrees
  have same : first.run tokens = second.run tokens := by
    refine sameOfReads fun address read => ?_
    have atRegister : address = 0x1000 := by simpa [events] using read
    rw [atRegister]
    rfl
  refine ⟨agrees, value, same ▸ value, fun memory => ?_⟩
  have agreesNamed : first.AgreesOn { second with memory } [named] := by
    constructor
    case lenient => rfl
    case registers => simp [named, first, second]
    case symbols => simp [named]
  obtain ⟨-, sameOverAll⟩ := run_depends_on_reads agreesNamed
  rw [← sameOverAll (by simp [named])]
  exact valueNamed

end GuestProbe
