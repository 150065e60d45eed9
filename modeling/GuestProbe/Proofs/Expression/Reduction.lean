import GuestProbe.Proofs.Expression.Division
import GuestProbe.Proofs.Expression.Meaning

/-! # Evaluation by division

`Environment.evaluateParts` evaluates a sequence whose division is known, and `reduce_eq` says that
this is how every sequence is evaluated, with an event before and one after it. The outcome does
not depend on the index of the first token, which only the events show (`outcome_reduce`), so
`Environment.value` and its equation `value_eq` leave it out.
-/

namespace GuestProbe

namespace Traced

variable {Event Failure Value Result Final : Type}

theorem bind_assoc (first : Traced Event Failure Value)
    (second : Value → Traced Event Failure Result) (third : Result → Traced Event Failure Final) :
    (first >>= second >>= third) = first >>= fun value => second value >>= third := by
  rcases first with ⟨events, _ | value⟩
  · rfl
  · simp only [bind, andThen]
    rcases second value with ⟨later, _ | result⟩
    · rfl
    · simp only [List.append_assoc]

end Traced

namespace Environment

/-- Evaluates a sequence that has a given division and a first token with a given index. -/
def evaluateParts (environment : Environment) (start : Nat) : Division → Evaluation UInt32
  | .nothing => .fail .missingOperand
  | .single token => environment.operand token
  | .enclosed interior => environment.reduce (start + 1) interior
  | .operatorless first => .fail (.missingOperator first.offset)
  | .leading first rest =>
      match first.kind.unaryOperator? with
      | none => .fail (.notUnary first.display first.offset)
      | some unary => environment.reduce (start + 1) rest >>= environment.applyUnary unary
  | .around left operator right => do
      let leftWord ← environment.reduce start left
      let rightWord ← environment.reduce (start + left.length + 1) right
      match operator.kind.binaryOperator? with
      | none => .fail (.unexpectedToken operator.display operator.offset)
      | some binary => .ofExcept (binary.apply operator.offset leftWord rightWord)

/-- Records that a sequence is evaluated and which value it has. -/
def recorded (start count : Nat) (evaluation : Evaluation UInt32) : Evaluation UInt32 := do
  .record (.entered start count)
  let value ← evaluation
  .record (.reduced start count value)
  pure value

theorem reduce_eq (environment : Environment) (start : Nat) (tokens : List Token) :
    environment.reduce start tokens =
      recorded start tokens.length (environment.evaluateParts start (divide tokens)) := by
  rw [reduce, recorded]
  congr 1
  funext _
  match tokens with
  | [] => rfl
  | [_] => rfl
  | first :: second :: rest =>
    simp only [divide]
    split
    · next interior inside => simp only [inside, evaluateParts]
    · next separate =>
      split
      · next none => simp only [separate, none, evaluateParts]
      · next operator index dominant =>
        have bound := Nat.le_of_lt (dominantOperator?_lt dominant)
        simp only [separate, dominant]
        split
        · simp only [evaluateParts]
          cases first.kind.unaryOperator? with
          | none => rfl
          | some unary => simp only [Traced.bind_assoc]
        · simp only [evaluateParts, List.length_take_of_le bound, Traced.bind_assoc]
          cases operator.kind.binaryOperator? <;> rfl

theorem outcome_recorded (start count : Nat) (evaluation : Evaluation UInt32) :
    (recorded start count evaluation).outcome = evaluation.outcome := by
  rcases evaluation with ⟨events, _ | value⟩ <;> rfl

/-- A value is recorded after all that happens on the way to it. -/
theorem events_recorded (start count : Nat) (evaluation : Evaluation UInt32) :
    (recorded start count evaluation).events =
      .entered start count :: (evaluation.events ++
        match evaluation.outcome with
        | .ok value => [.reduced start count value]
        | .error _ => []) := by
  rcases evaluation with ⟨events, failure | value⟩
  · exact congrArg _ (List.append_nil events).symm
  · rfl

/-- The outcome of evaluating a sequence. -/
def value (environment : Environment) (tokens : List Token) : Except ExpressionError UInt32 :=
  (environment.reduce 0 tokens).outcome

/-- The outcome for a sequence with a given division, from the outcomes for its parts. -/
def valueOfParts (environment : Environment) : Division → Except ExpressionError UInt32
  | .nothing => .error .missingOperand
  | .single token => (environment.operand token).outcome
  | .enclosed interior => environment.value interior
  | .operatorless first => .error (.missingOperator first.offset)
  | .leading first rest =>
      match first.kind.unaryOperator? with
      | none => .error (.notUnary first.display first.offset)
      | some unary => do
          let word ← environment.value rest
          unary.meaning environment word
  | .around left operator right => do
      let leftWord ← environment.value left
      let rightWord ← environment.value right
      match operator.kind.binaryOperator? with
      | none => .error (.unexpectedToken operator.display operator.offset)
      | some binary => binary.meaning operator.offset leftWord rightWord

theorem outcome_evaluateParts (environment : Environment) (start : Nat) (division : Division)
    (parts : ∀ part ∈ division.parts, ∀ start,
      (environment.reduce start part).outcome = environment.value part) :
    (environment.evaluateParts start division).outcome = environment.valueOfParts division := by
  cases division with
  | enclosed interior => exact parts interior List.mem_cons_self (start + 1)
  | leading first rest =>
    have inner := parts rest List.mem_cons_self (start + 1)
    simp only [evaluateParts, valueOfParts]
    cases first.kind.unaryOperator? with
    | none => rfl
    | some unary =>
      simp only [Traced.outcome_bind, inner, outcome_applyUnary]
      rfl
  | around left operator right =>
    have before := parts left List.mem_cons_self start
    have after := parts right (by simp [Division.parts]) (start + left.length + 1)
    simp only [evaluateParts, valueOfParts, Traced.outcome_bind, before, after]
    cases operator.kind.binaryOperator? with
    | none => rfl
    | some binary =>
      simp only [Traced.outcome_ofExcept, BinaryOperator.apply_eq_meaning]
      rfl
  | _ => rfl

/-- The outcome does not depend on the index of the first token. -/
theorem outcome_reduce (environment : Environment) (start : Nat) (tokens : List Token) :
    (environment.reduce start tokens).outcome = environment.value tokens := by
  induction tokens using division_induction generalizing start with
  | step tokens parts =>
    have same : ∀ part ∈ (divide tokens).parts, ∀ start,
        (environment.reduce start part).outcome = environment.value part :=
      fun part member start => parts part member start
    rw [value, reduce_eq, reduce_eq, outcome_recorded, outcome_recorded,
      outcome_evaluateParts _ _ _ same, outcome_evaluateParts _ _ _ same]

theorem value_eq (environment : Environment) (tokens : List Token) :
    environment.value tokens = environment.valueOfParts (divide tokens) := by
  rw [value, reduce_eq, outcome_recorded]
  exact outcome_evaluateParts _ _ _ fun part _ start => outcome_reduce environment start part

/-- A sequence with a parenthesis that lacks a partner is refused, and every other sequence has the
outcome of its evaluation. -/
theorem outcome_run (environment : Environment) (tokens : List Token) :
    (environment.run tokens).outcome =
      match unpaired? tokens with
      | some offset => .error (.unbalancedParenthesis offset)
      | none => environment.value tokens := by
  cases tokens with
  | nil => rw [unpaired?, unpairedAfter?, List.head?_nil, value_eq]; rfl
  | cons first rest =>
    simp only [run, List.isEmpty_cons, Bool.false_eq_true, if_false]
    cases unpaired? (first :: rest) <;> rfl

theorem outcome_run_eq_ok_iff {environment : Environment} {tokens : List Token} {word : UInt32} :
    (environment.run tokens).outcome = .ok word ↔
      isBalanced tokens = true ∧ environment.value tokens = .ok word := by
  rw [outcome_run, ← unpaired?_eq_none_iff]
  cases unpaired? tokens with
  | none => simp
  | some offset => simp

end Environment

end GuestProbe
