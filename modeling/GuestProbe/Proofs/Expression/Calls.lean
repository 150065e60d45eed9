import GuestProbe.Proofs.Expression.Pairing
import GuestProbe.Proofs.Guarded.Range

/-! # The ranges that are evaluated

Parentheses are checked once, for the whole sequence. After that the evaluation calls itself for
ever smaller ranges of it, cut at parentheses and operators. A call is for a range in which the
parentheses are balanced, or for the empty one behind or before an operator or between two
parentheses: this holds of the first call, and a call makes only such calls (`inRange_of_calls`).

So no call is for a single parenthesis, and a token is unexpected only where it stands for an
operand: a range is split at binary operators alone (`run_enters_balanced_ranges`).
-/

namespace GuestProbe

/-! ## Traces of calls -/

/-- What happens from some event on in a computation of two steps begins in the first step, or in
the second one after a value of the first one. -/
theorem Traced.suffix_events_bind {Event Failure Value Result : Type}
    {first : Traced Event Failure Value} {next : Value → Traced Event Failure Result}
    {event : Event} {later : List Event} (suffix : event :: later <:+ (first >>= next).events) :
    (∃ before, event :: before <:+ first.events ∧ before <+: later) ∨
      ∃ value, first.outcome = .ok value ∧ event :: later <:+ (next value).events := by
  rw [events_bind] at suffix
  obtain ⟨front, whole⟩ := suffix
  rcases List.append_eq_append_iff.mp whole with ⟨rest, split, same⟩ | ⟨rest, -, same⟩
  · cases rest with
    | cons head before =>
      obtain ⟨rfl, rfl⟩ := List.cons.inj same
      exact .inl ⟨before, ⟨front, split.symm⟩, List.prefix_append ..⟩
    | nil =>
      cases outcome : first.outcome with
      | error failure => rw [outcome] at same; cases same
      | ok value => rw [outcome] at same; exact .inr ⟨value, rfl, [], same⟩
  · cases outcome : first.outcome with
    | error failure =>
      rw [outcome] at same
      cases (List.append_eq_nil_iff.mp same.symm).2
    | ok value => rw [outcome] at same; exact .inr ⟨value, rfl, rest, same.symm⟩

/-- A failure of two steps is one of the first step, or of the second one after the first, and the
step that fails is what happens last. -/
theorem Traced.failed_bind {Event Failure Value Result : Type}
    {first : Traced Event Failure Value} {next : Value → Traced Event Failure Result}
    {failure : Failure} (failed : (first >>= next).outcome = .error failure) :
    first.outcome = .error failure ∧ first.events <:+ (first >>= next).events ∨
      ∃ value, first.outcome = .ok value ∧ (next value).outcome = .error failure ∧
        (next value).events <:+ (first >>= next).events := by
  rw [events_bind]
  rw [outcome_bind] at failed
  rcases failed_of_bind_eq_error failed with stopped | ⟨value, outcome, later⟩
  · rw [stopped, List.append_nil]
    exact .inl ⟨rfl, List.suffix_refl _⟩
  · rw [outcome]
    exact .inr ⟨value, rfl, later, List.suffix_append ..⟩

/-- The calls for the parts of a sequence that starts at an index, each by the index of its first
token and its tokens. A token that is no unary operator is not applied. -/
def Division.calls (start : Nat) : Division → List (Nat × List Token)
  | .enclosed interior => [(start + 1, interior)]
  | .leading first rest =>
      if first.kind.unaryOperator?.isSome then [(start + 1, rest)] else []
  | .around left _ right => [(start, left), (start + left.length + 1, right)]
  | _ => []

theorem Division.mem_parts_of_mem_calls {division : Division} {start : Nat}
    {call : Nat × List Token} (member : call ∈ division.calls start) :
    call.2 ∈ division.parts := by
  cases division with
  | enclosed interior => simp_all [calls, parts]
  | leading first rest =>
    simp only [calls] at member
    split at member <;> simp_all [parts]
  | around left operator right =>
    simp only [calls, List.mem_cons, List.not_mem_nil, or_false] at member
    rcases member with rfl | rfl <;> simp [parts]
  | _ => cases member

section Ranges

variable {tokens part : List Token} {start : Nat}

/-- A range of the tokens with an index of its first one: its parentheses are balanced, and if it is
empty it does not stand before the first token. -/
structure InRange (tokens : List Token) (start : Nat) (part : List Token) : Prop where
  occurs : OccursAt part tokens start
  balanced : isBalanced part = true
  reaches : 0 < start + part.length

/-- Balanced ranges are cut into balanced ranges. -/
theorem inRange_of_calls (range : InRange tokens start part) {call : Nat × List Token}
    (member : call ∈ (divide part).calls start) : InRange tokens call.1 call.2 := by
  obtain ⟨occurs, balanced, -⟩ := range
  have fits := divide_fits part
  cases divided : divide part with
  | enclosed interior =>
    rw [divided] at member fits
    obtain ⟨opening, closing, rfl, -, -, inside⟩ := (enclosed?_eq_some_iff ..).mp fits
    obtain rfl := List.mem_singleton.mp member
    exact ⟨OccursAt.inner [opening] [closing] occurs, inside, by omega⟩
  | leading first rest =>
    rw [divided] at member fits
    obtain ⟨rfl, -⟩ := fits
    simp only [Division.calls] at member
    split at member
    case isFalse => cases member
    case isTrue applied =>
      obtain ⟨operator, stands⟩ := Option.isSome_iff_exists.mp applied
      obtain ⟨-, -, -, notOpen, notClose⟩ := TokenKind.of_unaryOperator? stands
      obtain rfl := List.mem_singleton.mp member
      exact ⟨occurs.tail, (isBalanced_cons_iff notOpen notClose rest).mp balanced, by omega⟩
  | around left operator right =>
    obtain ⟨balancedLeft, balancedRight⟩ := isBalanced_of_divide_around divided balanced
    rw [divided] at member fits
    obtain ⟨rfl, more, -⟩ := fits
    obtain ⟨before, after⟩ := occurs.around
    have positive := List.length_pos_iff.mpr more
    simp only [Division.calls, List.mem_cons, List.not_mem_nil, or_false] at member
    rcases member with rfl | rfl
    · exact ⟨before, balancedLeft, Nat.add_pos_right start positive⟩
    · exact ⟨after, balancedRight, by omega⟩
  | _ => rw [divided] at member; cases member

end Ranges

namespace Environment

variable {environment : Environment}

/-! ## Entries -/

section Entries

variable {start first count : Nat} {later : List EvaluationEvent}

theorem not_entered_operand (token : Token) :
    ¬.entered first count :: later <:+ (environment.operand token).events := by
  intro entry
  have member := entry.subset List.mem_cons_self
  rcases environment.events_operand token with none | ⟨name, assumed⟩
  · rw [none] at member; cases member
  · rw [assumed] at member; cases List.mem_singleton.mp member

theorem not_entered_applyUnary (operator : UnaryOperator) (word : UInt32) :
    ¬.entered first count :: later <:+ (environment.applyUnary operator word).events := by
  intro entry
  have member := entry.subset List.mem_cons_self
  rw [events_applyUnary] at member
  split at member
  · cases List.mem_singleton.mp member
  · cases member

/-- What happens from the entry of a range on, in the evaluation of a division, begins in one of its
calls. -/
theorem call_of_entered_parts {division : Division}
    (entry : .entered first count :: later <:+ (environment.evaluateParts start division).events) :
    ∃ call ∈ division.calls start, ∃ before,
      .entered first count :: before <:+ (environment.reduce call.1 call.2).events ∧
        before <+: later := by
  cases division with
  | nothing => cases entry.subset List.mem_cons_self
  | operatorless head => cases entry.subset List.mem_cons_self
  | single token => exact absurd entry (not_entered_operand token)
  | enclosed interior => exact ⟨_, List.mem_singleton_self _, later, entry, List.prefix_refl _⟩
  | leading head rest =>
    simp only [evaluateParts] at entry
    cases stands : head.kind.unaryOperator? with
    | none =>
      rw [stands] at entry
      cases entry.subset List.mem_cons_self
    | some operator =>
      have own : (start + 1, rest) ∈ (Division.leading head rest).calls start := by
        simp [Division.calls, stands]
      rw [stands] at entry
      rcases Traced.suffix_events_bind entry with inner | ⟨word, -, applied⟩
      · exact ⟨_, own, inner⟩
      · exact absurd applied (not_entered_applyUnary operator word)
  | around left operator right =>
    rcases Traced.suffix_events_bind entry with inLeft | ⟨_, -, behind⟩
    · exact ⟨_, List.mem_cons_self, inLeft⟩
    rcases Traced.suffix_events_bind behind with inRight | ⟨_, -, joined⟩
    · exact ⟨_, List.mem_cons_of_mem _ List.mem_cons_self, inRight⟩
    · cases stands : operator.kind.binaryOperator? <;>
        · simp only [stands] at joined
          cases joined.subset List.mem_cons_self

/-- Every entry in the evaluation of a balanced range begins the evaluation of a balanced range. -/
theorem inRange_of_entered {tokens part : List Token} (range : InRange tokens start part)
    (entry : .entered first count :: later <:+ (environment.reduce start part).events) :
    ∃ inner, InRange tokens first inner ∧ inner.length = count ∧
      (environment.reduce first inner).events <+: .entered first count :: later := by
  induction part using division_induction generalizing start later with
  | step part parts =>
    -- Behind its own entry stands what happens in its calls, and the record of its value.
    have events : (environment.reduce start part).events = .entered start part.length ::
        (environment.evaluateParts start (divide part) >>= fun word =>
          Traced.record (.reduced start part.length word)).events := by
      rw [reduce_eq, events_recorded, Traced.events_bind]
      cases (environment.evaluateParts start (divide part)).outcome <;> rfl
    rw [events, List.suffix_cons_iff] at entry
    rcases entry with here | inside
    · obtain ⟨same, behind⟩ := List.cons.inj here
      cases same
      exact ⟨part, range, rfl, [], by rw [List.append_nil, events, behind]⟩
    rcases Traced.suffix_events_bind inside with ⟨before, within, front⟩ | ⟨_, -, recorded⟩
    · obtain ⟨call, member, after, called, further⟩ := call_of_entered_parts within
      obtain ⟨inner, innerRange, length, evaluates⟩ :=
        parts call.2 (Division.mem_parts_of_mem_calls member) (inRange_of_calls range member) called
      refine ⟨inner, innerRange, length, evaluates.trans ?_⟩
      exact (List.prefix_cons_inj _).mpr (further.trans front)
    · cases List.mem_singleton.mp (recorded.subset List.mem_cons_self)

end Entries

/-! ## Unexpected tokens -/

/-- A token without a value has no events. -/
theorem events_operand_of_error {token : Token} {error : ExpressionError}
    (failed : (environment.operand token).outcome = .error error) :
    (environment.operand token).events = [] := by
  rw [operand] at failed ⊢
  cases kind : token.kind with
  | hexadecimal =>
    simp only [kind] at failed ⊢
    split <;> rfl
  | register =>
    simp only [kind] at failed ⊢
    split <;> rfl
  | symbol =>
    simp only [kind] at failed ⊢
    split
    · rfl
    split
    · next unknown lenient =>
      rw [unknown, if_pos lenient] at failed
      cases failed
    · rfl
  | _ => rfl

/-- An operator at which a sequence is split is binary. -/
theorem exists_binaryOperator_of_dominant {tokens : List Token} {operator : Token} {index : Nat}
    (dominant : dominantOperator? tokens = some (operator, index))
    (notUnary : operator.kind.isUnary = false) :
    ∃ binary, operator.kind.binaryOperator? = some binary := by
  obtain ⟨exposed, -⟩ := (dominantOperator?_eq_some_iff ..).mp dominant
  obtain ⟨-, isOperator, -⟩ := (mem_exposedOperators_iff ..).mp exposed
  rcases TokenKind.exists_of_isOperator isOperator with ⟨_, unary⟩ | binary
  · have isUnary := (TokenKind.of_unaryOperator? unary).2.1
    rw [notUnary] at isUnary
    cases isUnary
  · exact binary

/-- If the evaluation of a division finds an unexpected token, the division is a single token that
is no operand, or one of its calls finds the token and is the last thing that happens. -/
theorem call_of_unexpected_parts {start : Nat} {part : List Token} {text : String} {offset : Nat}
    (failed : (environment.evaluateParts start (divide part)).outcome =
      .error (.unexpectedToken text offset)) :
    (∃ token, part = [token] ∧
        (environment.operand token).outcome = .error (.unexpectedToken text offset)) ∨
      ∃ call ∈ (divide part).calls start,
        (environment.reduce call.1 call.2).outcome = .error (.unexpectedToken text offset) ∧
          (environment.reduce call.1 call.2).events <:+
            (environment.evaluateParts start (divide part)).events := by
  have fits := divide_fits part
  generalize divide part = division at failed fits ⊢
  cases division with
  | nothing => cases failed
  | operatorless first => cases failed
  | single token => exact .inl ⟨token, fits, failed⟩
  | enclosed interior =>
    exact .inr ⟨_, List.mem_singleton_self _, failed, List.suffix_refl _⟩
  | leading first rest =>
    simp only [evaluateParts] at failed ⊢
    cases stands : first.kind.unaryOperator? with
    | none => rw [stands] at failed; cases failed
    | some operator =>
      have own : (start + 1, rest) ∈ (Division.leading first rest).calls start := by
        simp [Division.calls, stands]
      rw [stands] at failed
      rcases Traced.failed_bind failed with inner | ⟨word, -, applied, -⟩
      · exact .inr ⟨_, own, inner⟩
      · rw [outcome_applyUnary] at applied
        cases UnaryOperator.meaning_not_isStructural applied
  | around left operator right =>
    obtain ⟨-, -, dominant, notUnary⟩ := fits
    obtain ⟨binary, stands⟩ := exists_binaryOperator_of_dominant dominant notUnary
    simp only [evaluateParts, stands] at failed ⊢
    rcases Traced.failed_bind failed with before | ⟨leftWord, -, behind, last⟩
    · exact .inr ⟨_, List.mem_cons_self, before⟩
    rcases Traced.failed_bind behind with ⟨after, within⟩ | ⟨rightWord, -, joined, -⟩
    · exact .inr ⟨_, List.mem_cons_of_mem _ List.mem_cons_self, after, within.trans last⟩
    · rw [Traced.outcome_ofExcept, BinaryOperator.apply_eq_meaning] at joined
      cases BinaryOperator.meaning_not_isStructural joined

/-- In a balanced range an unexpected token is a range of its own, and its entry is the last thing
that happens. -/
theorem inRange_of_unexpected {tokens part : List Token} {start : Nat} {text : String}
    {offset : Nat}
    (range : InRange tokens start part)
    (failed : (environment.reduce start part).outcome = .error (.unexpectedToken text offset)) :
    ∃ index token, InRange tokens index [token] ∧
      [.entered index 1] <:+ (environment.reduce start part).events ∧
        (environment.operand token).outcome = .error (.unexpectedToken text offset) := by
  induction part using division_induction generalizing start with
  | step part parts =>
    rw [reduce_eq, outcome_recorded] at failed
    rw [reduce_eq, events_recorded, failed]
    rcases call_of_unexpected_parts failed with
      ⟨token, rfl, unexpected⟩ | ⟨call, member, inner, last⟩
    · refine ⟨start, token, range, ?_, unexpected⟩
      have none : (environment.evaluateParts start (divide [token])).events = [] :=
        events_operand_of_error unexpected
      rw [none]
      exact List.suffix_refl _
    · obtain ⟨index, token, own, entry, unexpected⟩ :=
        parts call.2 (Division.mem_parts_of_mem_calls member) (inRange_of_calls range member) inner
      refine ⟨index, token, own, ?_, unexpected⟩
      rw [List.append_nil]
      exact (entry.trans last).trans (List.suffix_cons ..)

end Environment

/-! ## Balanced sequences -/

/-- A call for the tokens from `first` to `last` of a sequence, with all that happens from its start
on. -/
structure Environment.Call (environment : Environment) (tokens : List Token) (first last : Nat)
    (happens : List EvaluationEvent) : Prop where
  /-- The range ends in the sequence. -/
  within : last < tokens.length
  /-- The parentheses of the range are balanced, or it is empty. -/
  balanced : first ≤ last ∧ Balanced (tokens.extract first (last + 1)) ∨ first = last + 1
  /-- What happens first is the evaluation of the range. -/
  evaluates : (environment.reduce first (tokens.extract first (last + 1))).events <+: happens
  /-- An operator that the range is split at has two operands. -/
  splits : ∀ operator index,
    dominantOperator? (tokens.extract first (last + 1)) = some (operator, index) →
      operator.kind.isUnary = false → ∃ binary, operator.kind.binaryOperator? = some binary

theorem InRange.call {environment : Environment} {tokens part : List Token} {first : Nat}
    {happens : List EvaluationEvent} (range : InRange tokens first part)
    (evaluates : (environment.reduce first part).events <+: happens) :
    environment.Call tokens first (first + part.length - 1) happens := by
  obtain ⟨occurs, balanced, reaches⟩ := range
  have ends : first + part.length - 1 + 1 = first + part.length := Nat.sub_add_cancel reaches
  have same := occurs.extract
  have bound := occurs.length_le
  refine ⟨by omega, ?_, ?_, ?_⟩
  · rw [ends, same]
    cases part with
    | nil => exact .inr rfl
    | cons head rest =>
      rw [List.length_cons] at ends ⊢
      exact .inl ⟨by omega, (isBalanced_iff_balanced _).mp balanced⟩
  · rwa [ends, same]
  · intro operator index
    exact Environment.exists_binaryOperator_of_dominant

theorem inRange_whole {tokens : List Token} (balanced : isBalanced tokens = true)
    (more : tokens ≠ []) : InRange tokens 0 tokens := by
  refine ⟨⟨[], [], by simp, rfl⟩, balanced, ?_⟩
  rw [Nat.zero_add]
  exact List.length_pos_iff.mpr more

/-- If no parenthesis of a sequence lacks a partner, every call in its evaluation is for a range of
it that is balanced or empty and that is split at binary operators only. An unexpected token is
reported right after the start of a call for this token alone, and it is no parenthesis. -/
theorem run_enters_balanced_ranges (environment : Environment) {tokens : List Token}
    (paired : unpaired? tokens = none) :
    (∀ first count later, .entered first count :: later <:+ (environment.run tokens).events →
      ∃ last, last + 1 = first + count ∧
        environment.Call tokens first last (.entered first count :: later)) ∧
    (∀ text offset, (environment.run tokens).outcome = .error (.unexpectedToken text offset) →
      ∃ index token, tokens[index]? = some token ∧ token.display = text ∧ token.offset = offset ∧
        token.kind ≠ .openParen ∧ token.kind ≠ .closeParen ∧
        (environment.operand token).outcome = .error (.unexpectedToken text offset) ∧
        [.entered index 1] <:+ (environment.run tokens).events) := by
  have balanced := (unpaired?_eq_none_iff tokens).mp paired
  cases tokens with
  | nil =>
    refine ⟨fun first count later entry => ?_, fun text offset failed => ?_⟩
    · cases entry.subset List.mem_cons_self
    · cases failed
  | cons head rest =>
    have same : environment.run (head :: rest) = environment.reduce 0 (head :: rest) := by
      simp only [Environment.run, List.isEmpty_cons, Bool.false_eq_true, if_false, paired]
    have whole := inRange_whole balanced (List.cons_ne_nil head rest)
    rw [same]
    refine ⟨?calls, ?unexpected⟩
    case calls =>
      intro first count later entry
      obtain ⟨part, range, rfl, evaluates⟩ := Environment.inRange_of_entered whole entry
      exact ⟨_, Nat.sub_add_cancel range.reaches, range.call evaluates⟩
    case unexpected =>
      intro text offset failed
      obtain ⟨index, token, range, entry, unexpected⟩ :=
        Environment.inRange_of_unexpected whole failed
      obtain ⟨sameOffset, display⟩ := Environment.operand_concerns unexpected
      obtain ⟨notOpen, notClose⟩ := not_paren_of_isBalanced range.balanced
      refine ⟨index, token, ?_, display, sameOffset, notOpen, notClose, unexpected, entry⟩
      obtain ⟨before, after, split, rfl⟩ := range.occurs
      simp [split]

/-- In `-(1+/)` the calls are for all tokens, for those from the first parenthesis on, for `1+/` and
for its two operands, of which the second one is unexpected. In `1+` the second operand is empty. -/
theorem run_enters_balanced_ranges_of_operators :
    let tokens : List Token :=
      [⟨.negate, 6, "-", 0⟩, ⟨.openParen, 7, "(", 1⟩, ⟨.decimal, 0, "1", 2⟩, ⟨.plus, 4, "+", 3⟩,
        ⟨.slash, 5, "/", 4⟩, ⟨.closeParen, 7, ")", 5⟩]
    let unfinished : List Token := [⟨.decimal, 0, "1", 0⟩, ⟨.plus, 4, "+", 1⟩]
    let environment : Environment :=
      ⟨fun _ => none, fun _ _ _ => .ok 0, fun _ => none, false⟩
    unpaired? tokens = none ∧ unpaired? unfinished = none ∧
      (environment.run tokens).events =
        [.entered 0 6, .entered 1 5, .entered 2 3, .entered 2 1, .reduced 2 1 1, .entered 4 1] ∧
      (∃ last, last + 1 = 2 + 3 ∧ environment.Call tokens 2 last
        [.entered 2 3, .entered 2 1, .reduced 2 1 1, .entered 4 1]) ∧
      (environment.run tokens).outcome = .error (.unexpectedToken "/" 4) ∧
      (∃ index token, tokens[index]? = some token ∧ token.display = "/" ∧ token.offset = 4 ∧
        token.kind ≠ .openParen ∧ token.kind ≠ .closeParen ∧
        (environment.operand token).outcome = .error (.unexpectedToken "/" 4) ∧
        [.entered index 1] <:+ (environment.run tokens).events) ∧
      ∃ last, last + 1 = 2 + 0 ∧ environment.Call unfinished 2 last [.entered 2 0] := by
  intro tokens unfinished environment
  have paired : unpaired? tokens = none := by decide
  have pairedToo : unpaired? unfinished = none := by decide
  have events : (environment.run tokens).events =
      [.entered 0 6, .entered 1 5, .entered 2 3, .entered 2 1, .reduced 2 1 1, .entered 4 1] := by
    decide +kernel
  have failed : (environment.run tokens).outcome = .error (.unexpectedToken "/" 4) := by
    decide +kernel
  have eventsToo : (environment.run unfinished).events =
      [.entered 0 2, .entered 0 1, .reduced 0 1 1, .entered 2 0] := by
    decide +kernel
  obtain ⟨calls, unexpected⟩ := run_enters_balanced_ranges environment paired
  obtain ⟨callsToo, -⟩ := run_enters_balanced_ranges environment pairedToo
  refine ⟨paired, pairedToo, events, calls 2 3 _ ?_, failed, unexpected "/" 4 failed,
    callsToo 2 0 [] ?_⟩
  · rw [events]
    exact ⟨[.entered 0 6, .entered 1 5], rfl⟩
  · rw [eventsToo]
    exact ⟨[.entered 0 2, .entered 0 1, .reduced 0 1 1], rfl⟩

end GuestProbe
