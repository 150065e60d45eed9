import GuestProbe.Proofs.Expression.Reduction
import GuestProbe.Proofs.Guarded.Range
import GuestProbe.Proofs.Guarded.Scanning

/-! # Evaluation on ranges of tokens

`reduceRange` evaluates the tokens between two indices of a stream and never builds another
sequence: operands are read, ranges are taken and ends are moved with guarded operations.
`evaluateInPlace` is the whole way from the text of an expression to its outcome.
`evaluateInPlace_eq_ok` says that for every text all operations on the way are within their domains
and that the outcome is the one of `Environment.evaluate`; the scan ends within one round more than
the text has bytes, and calls are nested no deeper than one more than a stream has tokens.

The recursion stays inside the stream because the parts of a division occur in the sequence that is
divided, and it ends because they are shorter. Beside that, only the mark of a hexadecimal number
needs care: truncation leaves it in place, so that it can be cut off.
-/

namespace GuestProbe

open Text

/-! ## Marks of hexadecimal numbers -/

/-- A token that is a hexadecimal number starts with the two bytes of its mark. -/
def Token.Marked (token : Token) : Prop :=
  token.kind = .hexadecimal →
    ∃ marker digits, token.text.toList = '0' :: marker :: digits ∧ (marker = 'x' ∨ marker = 'X')

/-- Truncation keeps the mark. -/
theorem marked_of_token? {text : List Char} {found : RuleMatch} {offset : Nat} {token : Token}
    (success : findRule? text = some found) (made : found.token? offset = some token) :
    token.Marked := by
  intro isHexadecimal
  obtain ⟨-, kind, -⟩ := heads_of_token? success made
  have ruleKind := kind.symm.trans isHexadecimal
  obtain ⟨marker, digits, lexeme, isMarker, -⟩ := isHexadecimal_lexeme success ruleKind
  simp only [RuleMatch.token?, Option.ite_none_left_eq_some, Option.some.injEq] at made
  obtain ⟨-, rfl⟩ := made
  refine ⟨marker, takeBytes 29 digits, ?_, isMarker⟩
  rw [Token.ofText, String.toList_ofList, RuleMatch.tokenText, if_neg (by simp [ruleKind]), lexeme]
  rcases isMarker with rfl | rfl <;> rfl

theorem Token.Marked.of_resolveUnary {token : Token} (marked : token.Marked)
    (previous : Option TokenKind) : (token.resolveUnary previous).Marked := by
  rw [resolveUnary]
  cases resolved : token.kind.unaryForm? with
  | none => exact marked
  | some form =>
    dsimp only
    split
    · exact marked
    · intro isHexadecimal
      obtain rfl : form = .hexadecimal := isHexadecimal
      cases kind : token.kind <;> rw [kind] at resolved <;> cases resolved

/-- The tokens that are evaluated keep their marks. -/
theorem marked_of_mem_resolveUnary {expression : String} {stream : TokenStream} {token : Token}
    (success : tokenize expression = .ok stream) (member : token ∈ stream.resolveUnary.tokens) :
    token.Marked := by
  have scanned := tokenize_cases expression
  rw [success] at scanned
  obtain ⟨all⟩ := scanned
  obtain ⟨original, among, previous, rfl⟩ := exists_of_mem_resolveUnaryAfter member
  rw [all] at among
  obtain ⟨_, _, _, -, reads, made⟩ := exists_piece_of_mem_tokensFrom among
  exact (marked_of_token? reads made).of_resolveUnary previous

namespace Guarded

/-! ## Operands and operators -/

/-- The value of a single token; the mark of a hexadecimal number is cut off. -/
def operandValue (environment : Environment) (token : Token) : GuardedOutcome UInt32 := do
  if token.kind = .hexadecimal then
    let digits ← textAfter 2 token.text.toList
    settled (token.literal 16 digits)
  else settled (environment.operand token).outcome

theorem operandValue_eq (environment : Environment) {token : Token} (marked : token.Marked) :
    operandValue environment token = settled (environment.operand token).outcome := by
  rw [operandValue]
  split
  · next isHexadecimal =>
    obtain ⟨marker, digits, text, isMarker⟩ := marked isHexadecimal
    have length : byteLength ['0', marker] = 2 := by rcases isMarker with rfl | rfl <;> rfl
    have cut : splitBytes? 2 token.text.toList = some (['0', marker], digits) := by
      rw [text, ← length]
      exact splitBytes?_byteLength ['0', marker] digits
    simp only [textAfter, cut, Environment.operand, isHexadecimal, liftM_pure_bind,
      Traced.outcome_ofExcept]
  · rfl

/-- Applies a binary operator to words. -/
def applyBinary (operator : BinaryOperator) (offset : Nat) (left right : UInt32) :
    GuardedOutcome UInt32 := do
  if operator = .divide then
    if right = 0 then throw (.divisionByZero offset) else quotient left right
  else settled (operator.apply offset left right)

theorem applyBinary_eq (operator : BinaryOperator) (offset : Nat) (left right : UInt32) :
    applyBinary operator offset left right = settled (operator.meaning offset left right) := by
  rw [applyBinary, ← BinaryOperator.apply_eq_meaning]
  split
  · next isDivision =>
    subst isDivision
    by_cases zero : right = 0
    · rw [if_pos zero, BinaryOperator.apply, if_pos zero]
      rfl
    · rw [if_neg zero, BinaryOperator.apply, if_neg zero, quotient, if_neg zero]
      rfl
  · rfl

/-! ## Reduction of a range -/

/-- The value of a range whose first token is applied to all others. -/
def reduceLeading (environment : Environment) (tokens : List Token)
    (reduce : Nat → Nat → GuardedOutcome UInt32) (first last : Nat) : GuardedOutcome UInt32 := do
  let operator ← element tokens first
  match operator.kind.unaryOperator? with
  | none => throw (.notUnary operator.display operator.offset)
  | some unary =>
      let word ← reduce (first + 1) last
      settled (environment.applyUnary unary word).outcome

/-- The value of a range that is split at an index. -/
def reduceAround (tokens : List Token) (reduce : Nat → Nat → GuardedOutcome UInt32)
    (first index last : Nat) : GuardedOutcome UInt32 := do
  let left ← reduce first (← minus index 1)
  let right ← reduce (index + 1) last
  let operator ← element tokens index
  match operator.kind.binaryOperator? with
  | none => throw (.unexpectedToken operator.display operator.offset)
  | some binary => applyBinary binary operator.offset left right

/-- The value of the tokens with indices from `first` to `last`. -/
def reduceRange (environment : Environment) (tokens : List Token) :
    (depth : Nat) → (first last : Nat) → GuardedOutcome UInt32
  | 0, _, _ => throwThe Violation .exhausted
  | depth + 1, first, last => do
      if last < first then throw .missingOperand
      else if first = last then operandValue environment (← element tokens first)
      else if ← isEnclosed tokens first last then
        reduceRange environment tokens depth (first + 1) (← minus last 1)
      else
        match ← dominantIndex? tokens first last with
        | none => throw (.missingOperator (← element tokens first).offset)
        | some index =>
            if ← isLeading tokens first index then
              reduceLeading environment tokens (reduceRange environment tokens depth) first last
            else reduceAround tokens (reduceRange environment tokens depth) first index last

/-- The value of a range that a sequence with the given division occurs in. -/
def reduceParts (environment : Environment) (tokens : List Token)
    (reduce : Nat → Nat → GuardedOutcome UInt32) (first last : Nat) :
    Division → GuardedOutcome UInt32
  | .nothing => throw .missingOperand
  | .single token => operandValue environment token
  | .enclosed _ => reduce (first + 1) (last - 1)
  | .operatorless head => throw (.missingOperator head.offset)
  | .leading _ _ => reduceLeading environment tokens reduce first last
  | .around left _ _ => reduceAround tokens reduce first (first + left.length) last

section Reduction

variable {environment : Environment} {part tokens : List Token} {first last : Nat}

/-- The decisions about a range are made within the domains of their operations, and they divide
the range like the sequence that occurs there. -/
theorem reduceRange_succ (depth : Nat) (occurs : OccursAt part tokens first)
    (ends : last + 1 = first + part.length) :
    reduceRange environment tokens (depth + 1) first last =
      reduceParts environment tokens (reduceRange environment tokens depth) first last
        (divide part) := by
  rw [reduceRange]
  match part with
  | [] =>
    have empty : last < first := Nat.lt_of_succ_le (Nat.le_of_eq ends)
    rw [if_pos empty, divide, reduceParts]
  | [token] =>
    obtain rfl : last = first := Nat.succ.inj ends
    rw [if_neg (Nat.lt_irrefl _), if_pos rfl, occurs.element_head, liftM_pure_bind, divide,
      reduceParts]
  | head :: second :: rest =>
    have more : 1 < (head :: second :: rest).length := by simp
    have distinct : ¬last < first ∧ first ≠ last ∧ 1 ≤ last := by
      simp only [List.length_cons] at ends
      omega
    rw [if_neg distinct.1, if_neg distinct.2.1, isEnclosed_eq occurs more ends, liftM_pure_bind]
    cases inside : enclosed? (head :: second :: rest) with
    | some interior =>
      rw [Option.isSome_some, if_pos rfl, minus_of_le distinct.2.2, liftM_pure_bind]
      simp only [divide, inside, reduceParts]
    | none =>
      rw [Option.isSome_none, if_neg Bool.false_ne_true, dominantIndex?_eq occurs ends,
        liftM_pure_bind]
      cases dominant : dominantOperator? (head :: second :: rest) with
      | none =>
        simp only [shifted, Option.map_none, occurs.element_head, liftM_pure_bind, divide, inside,
          dominant, reduceParts]
      | some chosen =>
        obtain ⟨operator, index⟩ := chosen
        have found := getElem?_of_dominantOperator? dominant
        simp only [shifted, Option.map_some, isLeading_eq occurs found, liftM_pure_bind, divide,
          inside, dominant, decide_eq_true_eq]
        split
        · rfl
        · have bound := Nat.le_of_lt (dominantOperator?_lt dominant)
          rw [reduceParts, List.length_take_of_le bound]

/-- The ranges that a sequence occurs in are reduced to the value of the sequence. -/
def Reduces (environment : Environment) (tokens : List Token)
    (reduce : Nat → Nat → GuardedOutcome UInt32) (part : List Token) : Prop :=
  ∀ first last, OccursAt part tokens first → last + 1 = first + part.length →
    reduce first last = settled (environment.value part)

section Steps

variable {reduce : Nat → Nat → GuardedOutcome UInt32}

theorem reduceLeading_eq {head : Token} {rest : List Token}
    (occurs : OccursAt (head :: rest) tokens first)
    (ends : last + 1 = first + (head :: rest).length)
    (reduces : Reduces environment tokens reduce rest) :
    reduceLeading environment tokens reduce first last =
      settled (environment.valueOfParts (.leading head rest)) := by
  rw [List.length_cons] at ends
  rw [reduceLeading, occurs.element_head, liftM_pure_bind, Environment.valueOfParts]
  cases head.kind.unaryOperator? with
  | none => rfl
  | some unary =>
    have inner := reduces _ last occurs.tail (by omega)
    simp only [inner, outcome_applyUnary]
    exact settled_bind_settled ..

theorem reduceAround_eq {left right : List Token} {operator : Token}
    (occurs : OccursAt (left ++ operator :: right) tokens first) (more : left ≠ [])
    (ends : last + 1 = first + (left ++ operator :: right).length)
    (reducesLeft : Reduces environment tokens reduce left)
    (reducesRight : Reduces environment tokens reduce right) :
    reduceAround tokens reduce first (first + left.length) last =
      settled (environment.valueOfParts (.around left operator right)) := by
  have positive := List.length_pos_iff.mpr more
  have readOperator : element tokens (first + left.length) = pure operator :=
    occurs.element (by simp)
  obtain ⟨before, after⟩ := occurs.around
  rw [List.length_append, List.length_cons] at ends
  rw [reduceAround, minus_of_le (by omega), liftM_pure_bind, reducesLeft _ _ before (by omega),
    Environment.valueOfParts]
  cases environment.value left with
  | error error => rfl
  | ok leftWord =>
    rw [settled_ok_bind, reducesRight _ _ after (by omega)]
    cases environment.value right with
    | error error => rfl
    | ok rightWord =>
      rw [settled_ok_bind, readOperator, liftM_pure_bind]
      cases operator.kind.binaryOperator? with
      | none => rfl
      | some binary => exact applyBinary_eq binary operator.offset leftWord rightWord

theorem reduceParts_eq (occurs : OccursAt part tokens first)
    (ends : last + 1 = first + part.length) (marked : ∀ token ∈ part, token.Marked)
    (reduces : ∀ inner ∈ (divide part).parts, Reduces environment tokens reduce inner) :
    reduceParts environment tokens reduce first last (divide part) =
      settled (environment.value part) := by
  have fits := divide_fits part
  rw [environment.value_eq]
  generalize divide part = division at fits reduces ⊢
  cases division with
  | nothing => rfl
  | single token =>
    obtain rfl : part = [token] := fits
    exact operandValue_eq environment (marked token List.mem_cons_self)
  | enclosed interior =>
    obtain ⟨opening, closing, rfl, -⟩ := (enclosed?_eq_some_iff ..).mp fits
    have within : OccursAt interior tokens (first + 1) :=
      OccursAt.inner [opening] [closing] occurs
    simp only [List.length_append, List.length_cons, List.length_nil] at ends
    exact reduces interior List.mem_cons_self _ _ within (by omega)
  | operatorless head => rfl
  | leading head rest =>
    obtain ⟨rfl, -⟩ := fits
    exact reduceLeading_eq occurs ends (reduces rest List.mem_cons_self)
  | around left operator right =>
    obtain ⟨rfl, notEmpty, -⟩ := fits
    exact reduceAround_eq occurs notEmpty ends (reduces left List.mem_cons_self)
      (reduces right (by simp [Division.parts]))

end Steps

/-- A call for a range makes calls for shorter ones only, so the length of the sequence bounds how
deep they are nested. -/
theorem reduceRange_eq {depth : Nat} (deep : part.length < depth)
    (marked : ∀ token ∈ part, token.Marked) :
    Reduces environment tokens (reduceRange environment tokens depth) part := by
  induction depth generalizing part with
  | zero => cases deep
  | succ depth ih =>
    intro first last occurs ends
    rw [reduceRange_succ depth occurs ends]
    refine reduceParts_eq occurs ends marked fun inner member => ?_
    have shorter := length_lt_of_mem_parts member
    exact ih (by omega) fun token among => marked token (mem_of_mem_parts member among)

end Reduction

/-! ## Expressions -/

/-- Evaluates a whole stream of tokens. -/
def runInPlace (environment : Environment) (tokens : List Token) : GuardedOutcome UInt32 := do
  if tokens.isEmpty then throw .missingOperand
  else
    match unpaired? tokens with
    | some offset => throw (.unbalancedParenthesis offset)
    | none =>
        reduceRange environment tokens (TokenStream.capacity + 1) 0 (← minus tokens.length 1)

theorem runInPlace_eq (environment : Environment) (stream : TokenStream)
    (marked : ∀ token ∈ stream.tokens, token.Marked) :
    runInPlace environment stream.tokens = settled (environment.run stream.tokens).outcome := by
  obtain ⟨tokens, bound⟩ := stream
  rw [runInPlace, Environment.run]
  cases tokens with
  | nil => rfl
  | cons head rest =>
    rw [List.isEmpty_cons, if_neg Bool.false_ne_true, if_neg Bool.false_ne_true]
    cases unpaired? (head :: rest) with
    | some offset => rfl
    | none =>
      have whole : OccursAt (head :: rest) (head :: rest) 0 := ⟨[], [], by simp, rfl⟩
      dsimp only
      rw [List.length_cons, minus_one_succ, liftM_pure_bind]
      exact reduceRange_eq (Nat.lt_succ_of_le bound) marked _ _ whole (Nat.zero_add _).symm

/-- Evaluates the text of an expression. -/
def evaluateInPlace (environment : Environment) (expression : String) : GuardedOutcome UInt32 := do
  let characters := expression.toList
  let stream ← scanByPosition characters (byteLength characters + 1) .empty 0
  let tokens ← resolveInPlace stream.tokens
  runInPlace environment tokens

end Guarded

/-- No expression leads an operation outside its domain: for every text and every environment the
evaluation ends with the outcome that the expression has. -/
theorem evaluateInPlace_eq_ok (environment : Environment) (expression : String) :
    (Guarded.evaluateInPlace environment expression).run =
      .ok (environment.evaluate expression) := by
  rw [← run_settled, Guarded.evaluateInPlace, Guarded.scanByPosition_eq, Environment.evaluate]
  cases success : tokenize expression with
  | error error => rfl
  | ok stream =>
    rw [settled_ok_bind, Guarded.resolveInPlace_eq, liftM_pure_bind,
      Guarded.runInPlace_eq environment stream.resolveUnary fun token member =>
        marked_of_mem_resolveUnary success member]
    rfl

end GuestProbe
