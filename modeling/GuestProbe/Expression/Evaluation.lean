import GuestProbe.Expression.DominantOperator
import GuestProbe.Expression.Environment
import GuestProbe.Expression.Operator
import GuestProbe.Expression.Scan
import GuestProbe.Log
import GuestProbe.Token.Unary

/-! # Evaluation

A sequence of tokens is reduced to a word without a parse tree. A single token is an operand. A
sequence in parentheses has the value of its interior. Any other sequence is split at its dominant
operator: before and after it, if it is binary and not the first token; otherwise the first token
is applied to all that follow. Both operands of a binary operator are evaluated, the left one
first, and none is skipped.

`Environment.run` checks the parentheses of a whole sequence and then reduces it;
`Environment.evaluate` starts from the text of an expression.
-/

namespace GuestProbe

open Text

/-- What an evaluation does, with token sequences named by their start and length. -/
inductive EvaluationEvent where
  /-- The reduction of a sequence begins. -/
  | entered (start count : Nat)
  /-- An unknown symbol gets a value. -/
  | assumed (name : String)
  /-- The word at an address is read. -/
  | read (address : UInt32)
  /-- A sequence has a value. -/
  | reduced (start count : Nat) (value : UInt32)
deriving DecidableEq, Repr

abbrev Evaluation := Traced EvaluationEvent ExpressionError

/-- The value of a number as it is written. -/
def Token.literal (token : Token) (radix : Nat) (digits : List Char) :
    Except ExpressionError UInt32 :=
  match readWord radix digits with
  | .ok value => .ok value
  | .error _ => .error (.invalidLiteral token.text token.offset)

namespace Environment

/-- The value of a single token. -/
def operand (environment : Environment) (token : Token) : Evaluation UInt32 :=
  match token.kind with
  | .decimal => .ofExcept (token.literal 10 token.text.toList)
  | .hexadecimal =>
      match splitBytes? 2 token.text.toList with
      | some (_, digits) => .ofExcept (token.literal 16 digits)
      | none => .fail (.invalidLiteral token.text token.offset)
  | .register =>
      match environment.register token.text with
      | some value => pure value
      | none => .fail (.unknownRegister token.text token.offset)
  | .symbol =>
      match environment.symbol token.text with
      | some value => pure value
      | none =>
          if environment.lenient then do
            .record (.assumed token.text)
            pure unknownSymbolWord
          else .fail (.unknownSymbol token.text token.offset)
  | _ => .fail (.unexpectedToken token.display token.offset)

/-- The value of a unary operator applied to a word. -/
def applyUnary (environment : Environment) (operator : UnaryOperator) (value : UInt32) :
    Evaluation UInt32 :=
  match operator with
  | .dereference => do
      .record (.read value)
      match environment.memory value 4 .ds with
      | .ok word => pure word
      | .error error => .fail (.memory value error)
  | .negate => pure (-value)
  | .not => pure (truthWord (value == 0))

/-- The value of a sequence of tokens, of which the first has the given index. -/
def reduce (environment : Environment) (start : Nat) (tokens : List Token) :
    Evaluation UInt32 := do
  .record (.entered start tokens.length)
  let value ← match tokens with
    | [] => .fail .missingOperand
    | [token] => environment.operand token
    | first :: second :: rest =>
        match _inside : enclosed? (first :: second :: rest) with
        | some interior => environment.reduce (start + 1) interior
        | none =>
            match _dominant : dominantOperator? (first :: second :: rest) with
            | none => .fail (.missingOperator first.offset)
            | some (operator, index) =>
                if index = 0 ∨ operator.kind.isUnary then
                  match first.kind.unaryOperator? with
                  | none => .fail (.notUnary first.display first.offset)
                  | some unary => do
                      let value ← environment.reduce (start + 1) (second :: rest)
                      environment.applyUnary unary value
                else do
                  let left ← environment.reduce start ((first :: second :: rest).take index)
                  let right ← environment.reduce (start + index + 1)
                    ((first :: second :: rest).drop (index + 1))
                  match operator.kind.binaryOperator? with
                  | none => .fail (.unexpectedToken operator.display operator.offset)
                  | some binary => .ofExcept (binary.apply operator.offset left right)
  .record (.reduced start tokens.length value)
  pure value
termination_by tokens.length
decreasing_by
  · have length := length_of_enclosed? _inside
    omega
  · simp
  · have bound := dominantOperator?_lt _dominant
    rw [List.length_take]
    omega
  · have bound := dominantOperator?_lt _dominant
    rw [List.length_drop]
    omega

/-- Evaluates a whole sequence of tokens. -/
def run (environment : Environment) (tokens : List Token) : Evaluation UInt32 :=
  if tokens.isEmpty then .fail .missingOperand
  else
    match unpaired? tokens with
    | some offset => .fail (.unbalancedParenthesis offset)
    | none => environment.reduce 0 tokens

/-- Evaluates an expression. -/
def evaluate (environment : Environment) (expression : String) :
    Except ExpressionError UInt32 := do
  let stream ← tokenize expression
  (environment.run stream.resolveUnary.tokens).outcome

end Environment

/-- The log record of an event in an evaluation, if it has one. -/
def EvaluationEvent.logRecord? : EvaluationEvent → Option LogRecord
  | .entered _ _ => none
  | .assumed name =>
      some ⟨.debug, "unknown symbol '" ++ name ++ "', using " ++ hexText unknownSymbolWord⟩
  | .read _ => none
  | .reduced start count value =>
      some ⟨.trace, "eval(" ++ decimalText start ++ ", " ++ decimalText (start + count - 1) ++
        ") = " ++ hexText value⟩

/-- The log of evaluating an expression. -/
def Environment.evaluationLog (environment : Environment) (expression : String) :
    List LogRecord :=
  let scanned := scan expression
  scanned.events.map (ScanEvent.logRecord expression) ++
    match scanned.outcome with
    | .error _ => []
    | .ok stream =>
        let resolved := stream.resolveUnary
        let evaluated := environment.run resolved.tokens
        stream.unaryLog ++ [⟨.debug, "evaluating " ++ resolved.display⟩] ++
          evaluated.events.filterMap EvaluationEvent.logRecord? ++
          match evaluated.outcome with
          | .error _ => []
          | .ok value => [⟨.debug, expression ++ " = " ++ hexText value⟩]

end GuestProbe
