import GuestProbe.Proofs.Expression.Reduction

/-! # Evaluation in other environments

An evaluation asks its environment for the words of operands and for those at the addresses that it
dereferences. If two environments give the same answers wherever the first one does not fail, the
outcomes of every expression are the same, unless the first evaluation ends with such a failure
(`Environment.AgreesUnless.evaluate`). For two environments that differ in their memories this asks
for nothing but words that agree (`Environment.evaluate_agreeUnless`).
-/

namespace GuestProbe

section Outcomes

variable {Failure OtherFailure Value Result : Type} {excused : Failure → Prop}
  {first second : Except Failure Value}

/-- Two outcomes are equal, or the first one is a failure of a given kind. -/
def AgreeUnless (excused : Failure → Prop) (first second : Except Failure Value) : Prop :=
  first = second ∨ ∃ failure, first = .error failure ∧ excused failure

namespace AgreeUnless

theorem refl (excused : Failure → Prop) (outcome : Except Failure Value) :
    AgreeUnless excused outcome outcome :=
  .inl rfl

theorem bind {next other : Value → Except Failure Result}
    (agree : AgreeUnless excused first second)
    (agreeNext : ∀ value, AgreeUnless excused (next value) (other value)) :
    AgreeUnless excused (first >>= next) (second >>= other) := by
  rcases agree with rfl | ⟨failure, rfl, kind⟩
  · cases first with
    | error failure => exact .inl rfl
    | ok value => exact agreeNext value
  · exact .inr ⟨failure, rfl, kind⟩

theorem map (agree : AgreeUnless excused first second) (function : Value → Result) :
    AgreeUnless excused (first.map function) (second.map function) := by
  rcases agree with rfl | ⟨failure, rfl, kind⟩
  · exact .refl ..
  · exact .inr ⟨failure, rfl, kind⟩

theorem mapError {excusedOther : OtherFailure → Prop} (agree : AgreeUnless excused first second)
    {function : Failure → OtherFailure}
    (carries : ∀ failure, excused failure → excusedOther (function failure)) :
    AgreeUnless excusedOther (first.mapError function) (second.mapError function) := by
  rcases agree with rfl | ⟨failure, rfl, kind⟩
  · exact .refl ..
  · exact .inr ⟨function failure, rfl, carries failure kind⟩

end AgreeUnless

end Outcomes

namespace Environment

/-- Two environments give the same answers to all that an evaluation asks, unless the first one
fails in a given way. -/
structure AgreesUnless (excused : ExpressionError → Prop) (first second : Environment) : Prop where
  operands : ∀ token,
    AgreeUnless excused (first.operand token).outcome (second.operand token).outcome
  reads : ∀ address, AgreeUnless excused ((first.memory address 4 .ds).mapError (.memory address))
    ((second.memory address 4 .ds).mapError (.memory address))

namespace AgreesUnless

variable {excused : ExpressionError → Prop} {first second : Environment}

theorem meaning (agrees : AgreesUnless excused first second) (operator : UnaryOperator)
    (word : UInt32) :
    AgreeUnless excused (operator.meaning first word) (operator.meaning second word) := by
  cases operator with
  | dereference => exact agrees.reads word
  | negate => exact .refl ..
  | not => exact .refl ..

theorem value (agrees : AgreesUnless excused first second) (tokens : List Token) :
    AgreeUnless excused (first.value tokens) (second.value tokens) := by
  induction tokens using division_induction with
  | step tokens parts =>
    rw [value_eq, value_eq]
    cases divided : divide tokens with
    | nothing => exact .refl ..
    | single token => exact agrees.operands token
    | operatorless first => exact .refl ..
    | enclosed interior =>
      rw [divided] at parts
      exact parts interior List.mem_cons_self
    | leading first rest =>
      rw [divided] at parts
      simp only [valueOfParts]
      cases first.kind.unaryOperator? with
      | none => exact .refl ..
      | some unary =>
        exact (parts rest List.mem_cons_self).bind fun word => agrees.meaning unary word
    | around left operator right =>
      rw [divided] at parts
      simp only [valueOfParts]
      refine (parts left List.mem_cons_self).bind fun leftWord => ?_
      refine (parts right (by simp [Division.parts])).bind fun rightWord => ?_
      exact .refl ..

theorem evaluate (agrees : AgreesUnless excused first second) (expression : String) :
    AgreeUnless excused (first.evaluate expression) (second.evaluate expression) := by
  refine (AgreeUnless.refl _ (tokenize expression)).bind fun stream => ?_
  rw [outcome_run, outcome_run]
  cases unpaired? stream.resolveUnary.tokens with
  | some offset => exact .refl ..
  | none => exact agrees.value _

end AgreesUnless

end Environment

/-! ## Other memories -/

/-- The error is a memory error with a cause of the given kind. -/
def ExpressionError.IsCausedBy (kind : MemoryError → Prop) (error : ExpressionError) : Prop :=
  ∃ address cause, error = .memory address cause ∧ kind cause

/-- Two evaluations with memories that agree unless reading the first one fails agree in the same
way. -/
theorem Environment.evaluate_agreeUnless (environment : Environment)
    {memory other : UInt32 → Nat → Segment → Except MemoryError UInt32}
    {excused : MemoryError → Prop}
    (reads : ∀ address, AgreeUnless excused (memory address 4 .ds) (other address 4 .ds))
    (expression : String) :
    AgreeUnless (ExpressionError.IsCausedBy excused)
      (evaluate { environment with memory } expression)
      (evaluate { environment with memory := other } expression) := by
  have agrees : AgreesUnless (ExpressionError.IsCausedBy excused)
      { environment with memory } { environment with memory := other } := by
    constructor
    case operands => exact fun token => .refl ..
    case reads =>
      intro address
      exact (reads address).mapError fun cause kind => ⟨address, cause, rfl, kind⟩
  exact agrees.evaluate expression

end GuestProbe
