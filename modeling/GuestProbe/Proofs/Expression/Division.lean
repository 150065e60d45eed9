import GuestProbe.Proofs.Expression.Grammar

/-! # How a sequence is divided

`divide` names the case in which the evaluation of a sequence finds itself, with the parts that are
evaluated next. `divide_fits` says what a division tells about the sequence. Conversely, sequences
that are composed like those of the grammar are divided the way they are composed (`divide_grouped`,
`divide_unary`, `divide_binary`).
-/

namespace GuestProbe

/-- The parts of a sequence of tokens. -/
inductive Division where
  | nothing
  | single (token : Token)
  /-- The sequence is in parentheses. -/
  | enclosed (interior : List Token)
  /-- The sequence has no operator outside parentheses. -/
  | operatorless (first : Token)
  /-- The first token is applied to all others. -/
  | leading (first : Token) (rest : List Token)
  /-- The sequence is split at a binary operator. -/
  | around (left : List Token) (operator : Token) (right : List Token)

/-- Divides a sequence the way in which it is evaluated. -/
def divide : List Token → Division
  | [] => .nothing
  | [token] => .single token
  | first :: second :: rest =>
      match enclosed? (first :: second :: rest), dominantOperator? (first :: second :: rest) with
      | some interior, _ => .enclosed interior
      | none, none => .operatorless first
      | none, some (operator, index) =>
          if index = 0 ∨ operator.kind.isUnary = true then .leading first (second :: rest)
          else .around ((first :: second :: rest).take index) operator
            ((first :: second :: rest).drop (index + 1))

/-- What a division says about the sequence that is divided. -/
def Division.Fits (tokens : List Token) : Division → Prop
  | .nothing => tokens = []
  | .single token => tokens = [token]
  | .enclosed interior => enclosed? tokens = some interior
  | .operatorless _ => exposedOperators tokens = []
  | .leading first rest => tokens = first :: rest ∧
      ∃ operator index, dominantOperator? tokens = some (operator, index) ∧
        (index = 0 ∨ operator.kind.isUnary = true)
  | .around left operator right => tokens = left ++ operator :: right ∧ left ≠ [] ∧
      dominantOperator? tokens = some (operator, left.length) ∧ operator.kind.isUnary = false

theorem eq_take_append_drop_of_getElem? {tokens : List Token} {token : Token} {index : Nat}
    (found : tokens[index]? = some token) :
    tokens = tokens.take index ++ token :: tokens.drop (index + 1) := by
  obtain ⟨bound, rfl⟩ := List.getElem?_eq_some_iff.mp found
  rw [← List.drop_eq_getElem_cons bound, List.take_append_drop]

theorem divide_fits (tokens : List Token) : (divide tokens).Fits tokens := by
  match tokens with
  | [] => rfl
  | [_] => rfl
  | first :: second :: rest =>
    simp only [divide]
    split
    · next inside => exact inside
    · next none => exact (dominantOperator?_eq_none_iff _).mp none
    · next operator index _ dominant =>
      have bound := dominantOperator?_lt dominant
      split
      · next leads => exact ⟨rfl, operator, index, dominant, leads⟩
      · next inner =>
        obtain ⟨notFirst, notUnary⟩ := not_or.mp inner
        have length : ((first :: second :: rest).take index).length = index :=
          List.length_take_of_le (Nat.le_of_lt bound)
        refine ⟨eq_take_append_drop_of_getElem? (getElem?_of_dominantOperator? dominant), ?_, ?_,
          Bool.eq_false_iff.mpr notUnary⟩
        · rw [← List.length_pos_iff, length]
          exact Nat.pos_of_ne_zero notFirst
        · rw [length]
          exact dominant

theorem head?_of_divide_operatorless {tokens : List Token} {first : Token}
    (divided : divide tokens = .operatorless first) : tokens.head? = some first := by
  match tokens with
  | [] => cases divided
  | [_] => cases divided
  | head :: second :: rest =>
    simp only [divide] at divided
    split at divided
    · cases divided
    · cases divided
      rfl
    · split at divided <;> cases divided

/-- The sequences that are evaluated for a sequence with a given division. -/
def Division.parts : Division → List (List Token)
  | .enclosed interior => [interior]
  | .leading _ rest => [rest]
  | .around left _ right => [left, right]
  | _ => []

theorem length_lt_of_mem_parts {tokens part : List Token}
    (member : part ∈ (divide tokens).parts) : part.length < tokens.length := by
  have fits := divide_fits tokens
  cases divided : divide tokens with
  | enclosed interior =>
    rw [divided] at member fits
    have length := length_of_enclosed? fits
    rw [List.mem_singleton.mp member]
    omega
  | leading first rest =>
    rw [divided] at member fits
    rw [List.mem_singleton.mp member, fits.1]
    exact Nat.lt_succ_self _
  | around left operator right =>
    rw [divided] at member fits
    have length := congrArg List.length fits.1
    rw [List.length_append, List.length_cons] at length
    have positive := List.length_pos_iff.mpr fits.2.1
    simp only [Division.parts, List.mem_cons, List.not_mem_nil, or_false] at member
    rcases member with rfl | rfl <;> omega
  | _ => rw [divided] at member; cases member

theorem mem_of_mem_parts {tokens part : List Token} {token : Token}
    (member : part ∈ (divide tokens).parts) (among : token ∈ part) : token ∈ tokens := by
  have fits := divide_fits tokens
  cases divided : divide tokens with
  | enclosed interior =>
    rw [divided] at member fits
    obtain ⟨_, _, rfl, -⟩ := (enclosed?_eq_some_iff ..).mp fits
    rw [List.mem_singleton.mp member] at among
    simp [among]
  | leading first rest =>
    rw [divided] at member fits
    rw [List.mem_singleton.mp member] at among
    rw [fits.1]
    exact List.mem_cons_of_mem _ among
  | around left operator right =>
    rw [divided] at member fits
    rw [fits.1]
    simp only [Division.parts, List.mem_cons, List.not_mem_nil, or_false] at member
    rcases member with rfl | rfl <;> simp [among]
  | _ => rw [divided] at member; cases member

/-- Induction along the evaluation of sequences. -/
theorem division_induction {motive : List Token → Prop}
    (step : ∀ tokens, (∀ part ∈ (divide tokens).parts, motive part) → motive tokens)
    (tokens : List Token) : motive tokens :=
  step tokens fun part _ => division_induction step part
termination_by tokens.length
decreasing_by exact length_lt_of_mem_parts (by assumption)

/-! ## Dividing balanced sequences -/

theorem isBalanced_of_divide_around {tokens left right : List Token} {operator : Token}
    (divided : divide tokens = .around left operator right) (balanced : isBalanced tokens = true) :
    isBalanced left = true ∧ isBalanced right = true := by
  have fits := divide_fits tokens
  rw [divided] at fits
  obtain ⟨rfl, -, dominant, -⟩ := fits
  obtain ⟨exposed, -⟩ := (dominantOperator?_eq_some_iff ..).mp dominant
  obtain ⟨-, isOperator, before⟩ := (mem_exposedOperators_iff_of_isBalanced balanced ..).mp exposed
  rw [List.take_left] at before
  obtain ⟨notOpen, notClose⟩ := TokenKind.not_paren_of_isOperator isOperator
  exact ⟨before, (isBalanced_cons_iff notOpen notClose _).mp
    ((isBalanced_append_iff before _).mp balanced)⟩

/-- No operator to the left of the split binds looser, and all to the right bind tighter. -/
theorem precedence_of_divide_around {tokens left right : List Token} {operator : Token}
    (divided : divide tokens = .around left operator right) (balanced : isBalanced tokens = true) :
    (operator, left.length) ∈ exposedOperators tokens ∧
      (∀ other index, (other, index) ∈ exposedOperators left →
        operator.precedence ≤ other.precedence) ∧
      ∀ other index, (other, index) ∈ exposedOperators right →
        operator.precedence < other.precedence := by
  obtain ⟨balancedLeft, balancedRight⟩ := isBalanced_of_divide_around divided balanced
  have fits := divide_fits tokens
  rw [divided] at fits
  obtain ⟨rfl, -, dominant, -⟩ := fits
  obtain ⟨exposed, preferred⟩ := (dominantOperator?_eq_some_iff ..).mp dominant
  obtain ⟨-, isOperator, -⟩ := (mem_exposedOperators_iff ..).mp exposed
  obtain ⟨notOpen, notClose⟩ := TokenKind.not_paren_of_isOperator isOperator
  have balancedRest := (isBalanced_cons_iff notOpen notClose right).mpr balancedRight
  have among := mem_exposedOperators_append_iff balancedLeft balancedRest
  refine ⟨exposed, ?_, ?_⟩
  · intro other index earlier
    have compared := preferred _ ((among other index).mpr (.inl earlier))
    simp only [Preferred] at compared
    omega
  · intro other index later
    have inRest := (mem_exposedOperators_cons_iff notOpen notClose balancedRight other _).mpr
      (.inr ⟨index, rfl, later⟩)
    have compared := preferred _ ((among other _).mpr (.inr ⟨_, rfl, inRest⟩))
    simp only [Preferred] at compared
    omega

/-! ## Dividing composed sequences -/

theorem divide_grouped {opening closing : Token} {interior : List Token}
    (opens : opening.kind = .openParen) (closes : closing.kind = .closeParen)
    (balanced : isBalanced interior = true) :
    divide (opening :: interior ++ [closing]) = .enclosed interior := by
  have inside : enclosed? (opening :: interior ++ [closing]) = some interior :=
    (enclosed?_eq_some_iff ..).mpr ⟨opening, closing, rfl, opens, closes, balanced⟩
  cases interior with
  | nil =>
    simp only [List.cons_append, List.nil_append] at inside ⊢
    simp only [divide, inside]
  | cons first rest =>
    simp only [List.cons_append] at inside ⊢
    simp only [divide, inside]

/-- A sequence whose first token opens no parenthesis is not enclosed. -/
theorem enclosed?_eq_none_of_not_open {first : Token} (notOpen : first.kind ≠ .openParen)
    (rest : List Token) : enclosed? (first :: rest) = none :=
  if_neg fun inside => notOpen inside.1

/-- A sequence whose dominant operator is its first token or a prefix operator is led by its first
token, unless it is in parentheses. -/
theorem divide_of_leading {first operator : Token} {rest : List Token} {index : Nat}
    (notOpen : first.kind ≠ .openParen) (more : rest ≠ [])
    (dominant : dominantOperator? (first :: rest) = some (operator, index))
    (leads : index = 0 ∨ operator.kind.isUnary = true) :
    divide (first :: rest) = .leading first rest := by
  obtain ⟨second, rest, rfl⟩ := List.exists_cons_of_ne_nil more
  have separate := enclosed?_eq_none_of_not_open notOpen (second :: rest)
  simp only [divide, separate, dominant, if_pos leads]

/-- A prefix operator before a sequence that binds as tightly leads the sequence. -/
theorem divide_unary {first : Token} {rest : List Token} {operator : UnaryOperator}
    (stands : first.kind.unaryOperator? = some operator) (more : rest ≠ [])
    (balanced : isBalanced rest = true) (ranked : ∀ token ∈ first :: rest, token.Ranked)
    (tight : ∀ operator index, (operator, index) ∈ exposedOperators rest →
      6 ≤ operator.precedence) :
    divide (first :: rest) = .leading first rest := by
  obtain ⟨isOperator, isUnary, precedence, notOpen, notClose⟩ := TokenKind.of_unaryOperator? stands
  have exposed := mem_exposedOperators_cons_iff notOpen notClose balanced
  cases dominant : dominantOperator? (first :: rest) with
  | none =>
    have none := (dominantOperator?_eq_none_iff _).mp dominant
    have own := (exposed first 0).mpr (.inl ⟨rfl, rfl, isOperator⟩)
    rw [none] at own
    cases own
  | some chosen =>
    obtain ⟨chosen, index⟩ := chosen
    obtain ⟨chosenExposed, -⟩ := (dominantOperator?_eq_some_iff ..).mp dominant
    refine divide_of_leading notOpen more dominant ?_
    rcases (exposed chosen index).mp chosenExposed with ⟨-, atStart, -⟩ | ⟨offset, -, later⟩
    · exact .inl atStart
    · right
      obtain ⟨found, chosenOperator, -⟩ := (mem_exposedOperators_iff ..).mp later
      have rank := ranked chosen (List.mem_cons_of_mem _ (List.mem_of_getElem? found))
      have bound := tight chosen offset later
      rcases TokenKind.exists_of_isOperator chosenOperator with ⟨_, unary⟩ | ⟨binary, stands⟩
      · exact (TokenKind.of_unaryOperator? unary).2.1
      · have level := binary.level_le
        rw [rank, (TokenKind.of_binaryOperator? stands).2.2.1] at bound
        omega

/-- A sequence is not in parentheses if a balanced part of it ends before its last token. -/
theorem enclosed?_append_eq_none {left right : List Token} (moreLeft : left ≠ [])
    (moreRight : right ≠ []) (balanced : isBalanced left = true) :
    enclosed? (left ++ right) = none := by
  refine Option.eq_none_iff_forall_ne_some.mpr fun interior inside => ?_
  obtain ⟨first, last, shape, opens, -, within⟩ := (enclosed?_eq_some_iff ..).mp inside
  obtain ⟨head, inner, rfl⟩ := List.exists_cons_of_ne_nil moreLeft
  -- the first token is closed in the left part, and the interior reaches beyond it
  rw [List.cons_append, List.cons_append, List.cons.injEq] at shape
  obtain ⟨rfl, shape⟩ := shape
  have interiorShape : interior = inner ++ right.dropLast := by
    rw [← List.dropLast_append_of_ne_nil moreRight, shape, List.dropLast_concat]
  rw [interiorShape] at within
  exact not_isBalanced_of_open_left opens balanced within

/-- A sequence is split at a dominant operator behind a balanced part. -/
theorem divide_of_around {token : Token} {left right : List Token} (more : left ≠ [])
    (balanced : isBalanced left = true)
    (dominant : dominantOperator? (left ++ token :: right) = some (token, left.length))
    (notUnary : token.kind.isUnary = false) :
    divide (left ++ token :: right) = .around left token right := by
  have separate := enclosed?_append_eq_none more (List.cons_ne_nil token right) balanced
  obtain ⟨first, inner, rfl⟩ := List.exists_cons_of_ne_nil more
  have position : ¬((first :: inner).length = 0 ∨ token.kind.isUnary = true) := by
    simp [notUnary]
  cases parts : inner ++ token :: right with
  | nil => simp at parts
  | cons second rest =>
    rw [List.cons_append, parts] at separate dominant ⊢
    simp only [divide, separate, dominant, if_neg position]
    rw [← parts, ← List.cons_append, List.take_left, ← List.drop_drop, List.drop_left]
    rfl

/-- A binary operator that binds looser than all after it and no tighter than those before it is
the place of the split. -/
theorem divide_binary {token : Token} {operator : BinaryOperator} {left right : List Token}
    (stands : token.kind.binaryOperator? = some operator) (more : left ≠ [])
    (balancedLeft : isBalanced left = true) (balancedRight : isBalanced right = true)
    (loose : ∀ other index, (other, index) ∈ exposedOperators left →
      token.precedence ≤ other.precedence)
    (tight : ∀ other index, (other, index) ∈ exposedOperators right →
      token.precedence < other.precedence) :
    divide (left ++ token :: right) = .around left token right := by
  obtain ⟨isOperator, notUnary, -, notOpen, notClose⟩ := TokenKind.of_binaryOperator? stands
  have balancedRest := (isBalanced_cons_iff notOpen notClose right).mpr balancedRight
  have exposed := mem_exposedOperators_append_iff balancedLeft balancedRest
  have exposedRest := mem_exposedOperators_cons_iff notOpen notClose balancedRight
  have dominant : dominantOperator? (left ++ token :: right) = some (token, left.length) := by
    refine (dominantOperator?_eq_some_iff ..).mpr ⟨?_, ?_⟩
    · exact (exposed ..).mpr (.inr ⟨0, rfl, (exposedRest ..).mpr (.inl ⟨rfl, rfl, isOperator⟩)⟩)
    · rintro ⟨other, index⟩ among
      rcases (exposed ..).mp among with earlier | ⟨offset, rfl, rest⟩
      · have bound := loose other index earlier
        have before := lt_length_of_mem_exposedOperators earlier
        simp only [Preferred]
        omega
      rcases (exposedRest ..).mp rest with ⟨rfl, rfl, -⟩ | ⟨offset, rfl, later⟩
      · exact .refl _
      · exact .inl (tight other offset later)
  exact divide_of_around more balancedLeft dominant notUnary

end GuestProbe
