import GuestProbe.Proofs.Expression.Reduction

/-! # Evaluation follows the grammar

Evaluation never builds a tree, but divides sequences at their dominant operators. The divisions of
a derived sequence are those of its derivation (`Derives.parsed`), so a sequence has at most one
tree and its value is the meaning of that tree. Conversely a balanced sequence that has a value
derives, at every level that its exposed operators allow (`derives_of_value`).

Together, an evaluation gives a word only for the expressions of the grammar
(`run_computes_grammar`).
-/

namespace GuestProbe

/-- A tree is assembled from the divisions of a sequence. -/
inductive Parsed : List Token → SyntaxTree → Prop where
  | operand {tokens : List Token} {token : Token} (divided : divide tokens = .single token) :
      Parsed tokens (.operand token)
  | grouped {tokens interior : List Token} {inner : SyntaxTree}
      (divided : divide tokens = .enclosed interior) (inside : Parsed interior inner) :
      Parsed tokens (.grouped inner)
  | unary {tokens rest : List Token} {first : Token} {operator : UnaryOperator}
      {argument : SyntaxTree} (divided : divide tokens = .leading first rest)
      (stands : first.kind.unaryOperator? = some operator) (applied : Parsed rest argument) :
      Parsed tokens (.unary operator argument)
  | binary {tokens before after : List Token} {token : Token} {operator : BinaryOperator}
      {left right : SyntaxTree} (divided : divide tokens = .around before token after)
      (stands : token.kind.binaryOperator? = some operator) (parsedLeft : Parsed before left)
      (parsedRight : Parsed after right) :
      Parsed tokens (.binary operator token.offset left right)

namespace Parsed

variable {tokens : List Token} {tree : SyntaxTree}

theorem unique {other : SyntaxTree} (first : Parsed tokens tree) (second : Parsed tokens other) :
    tree = other := by
  induction first generalizing other with
  | operand divided =>
    cases second with
    | operand same =>
      cases divided.symm.trans same
      rfl
    | _ => simp_all
  | grouped divided _ ih =>
    cases second with
    | grouped same inside =>
      cases divided.symm.trans same
      rw [ih inside]
    | _ => simp_all
  | unary divided stands _ ih =>
    cases second with
    | unary same standsToo applied =>
      cases divided.symm.trans same
      cases stands.symm.trans standsToo
      rw [ih applied]
    | _ => simp_all
  | binary divided stands _ _ ihLeft ihRight =>
    cases second with
    | binary same standsToo parsedLeft parsedRight =>
      cases divided.symm.trans same
      cases stands.symm.trans standsToo
      rw [ihLeft parsedLeft, ihRight parsedRight]
    | _ => simp_all

/-- The value of a sequence is the meaning of its tree. -/
theorem value_eq (parsed : Parsed tokens tree) (environment : Environment) :
    environment.value tokens = tree.denote environment := by
  induction parsed with
  | operand divided => rw [environment.value_eq, divided]; rfl
  | grouped divided _ ih =>
    rw [environment.value_eq, divided]
    exact ih
  | unary divided stands _ ih =>
    rw [environment.value_eq, divided, SyntaxTree.denote]
    simp only [Environment.valueOfParts, stands, ih]
  | binary divided stands _ _ ihLeft ihRight =>
    rw [environment.value_eq, divided, SyntaxTree.denote]
    simp only [Environment.valueOfParts, stands, ihLeft, ihRight]

end Parsed

/-- A derived sequence is divided the way it is derived. -/
theorem Derives.parsed {level : Nat} {tokens : List Token} {tree : SyntaxTree}
    (derivation : Derives level tokens tree) (ranked : ∀ token ∈ tokens, token.Ranked) :
    Parsed tokens tree := by
  induction derivation with
  | operand => exact .operand rfl
  | grouped opens closes inside ih =>
    refine .grouped (divide_grouped opens closes inside.isBalanced) (ih ?_)
    intro token member
    exact ranked token (by simp [member])
  | unary stands applied ih =>
    have rankedRest := fun token member => ranked token (List.mem_cons_of_mem _ member)
    have evaluated := TokenKind.unaryOperator?_eq_some_iff.mpr stands
    refine .unary (divide_unary evaluated applied.ne_nil applied.isBalanced ranked ?_) evaluated
      (ih rankedRest)
    intro operator index exposed
    exact applied.level_le_of_exposed rankedRest exposed
  | @binary token operator before after _ _ stands derivedLeft derivedRight ihLeft ihRight =>
    have rankedLeft : ∀ token ∈ before, token.Ranked :=
      fun token member => ranked token (List.mem_append_left _ member)
    have rankedRight : ∀ token ∈ after, token.Ranked :=
      fun token member => ranked token (by simp [member])
    have evaluated := TokenKind.binaryOperator?_eq_some_iff.mpr stands
    have precedence : token.precedence = operator.level :=
      (ranked token (by simp)).trans (TokenKind.of_binaryOperator? evaluated).2.2.1
    refine .binary ?_ evaluated (ihLeft rankedLeft) (ihRight rankedRight)
    apply divide_binary evaluated derivedLeft.ne_nil derivedLeft.isBalanced derivedRight.isBalanced
    · intro other index exposed
      rw [precedence]
      exact derivedLeft.level_le_of_exposed rankedLeft exposed
    · intro other index exposed
      rw [precedence]
      exact derivedRight.level_le_of_exposed rankedRight exposed
  | looser _ ih => exact ih ranked

/-! ## From values to derivations -/

theorem isOperand_of_value {environment : Environment} {token : Token} {word : UInt32}
    (value : (environment.operand token).outcome = .ok word) : token.kind.isOperand = true := by
  rcases token with ⟨kind, precedence, text, offset⟩
  cases kind <;> first | rfl | cases value

/-- The operators after a leading prefix operator bind as tightly as it does. -/
theorem precedence_of_divide_leading {tokens rest : List Token} {first : Token}
    {unary : UnaryOperator} (divided : divide tokens = .leading first rest)
    (stands : first.kind.unaryOperator? = some unary) (balanced : isBalanced rest = true)
    (ranked : ∀ token ∈ tokens, token.Ranked) {other : Token} {index : Nat}
    (exposed : (other, index) ∈ exposedOperators rest) : 6 ≤ other.precedence := by
  have fits := divide_fits tokens
  rw [divided] at fits
  obtain ⟨rfl, operator, position, dominant, leads⟩ := fits
  obtain ⟨-, -, firstPrecedence, notOpen, notClose⟩ := TokenKind.of_unaryOperator? stands
  obtain ⟨-, preferred⟩ := (dominantOperator?_eq_some_iff ..).mp dominant
  have found := getElem?_of_dominantOperator? dominant
  have precedence : operator.precedence = 6 := by
    rw [ranked operator (List.mem_of_getElem? found)]
    rcases leads with rfl | isUnary
    · cases found
      exact firstPrecedence
    · exact TokenKind.precedence_of_isUnary isUnary
  have compared := preferred (other, index + 1)
    ((mem_exposedOperators_cons_iff notOpen notClose balanced ..).mpr (.inr ⟨index, rfl, exposed⟩))
  simp only [Preferred] at compared
  omega

/-- A prefix operator may stand wherever the level of the derivation allows it. -/
theorem derives_of_divide_leading {tokens rest : List Token} {first : Token} {level : Nat}
    {unary : UnaryOperator} (divided : divide tokens = .leading first rest)
    (stands : first.kind.unaryOperator? = some unary) (balanced : isBalanced tokens = true)
    (ranked : ∀ token ∈ tokens, token.Ranked)
    (loose : ∀ operator index, (operator, index) ∈ exposedOperators tokens →
      level ≤ operator.precedence)
    (applied : ∃ argument, Derives 6 rest argument) : ∃ tree, Derives level tokens tree := by
  have fits := divide_fits tokens
  rw [divided] at fits
  obtain ⟨rfl, -⟩ := fits
  obtain ⟨isOperator, -, precedence, notOpen, notClose⟩ := TokenKind.of_unaryOperator? stands
  have balancedRest := (isBalanced_cons_iff notOpen notClose rest).mp balanced
  have exposed := (mem_exposedOperators_cons_iff notOpen notClose balancedRest first 0).mpr
    (.inl ⟨rfl, rfl, isOperator⟩)
  have tight := loose first 0 exposed
  rw [ranked first List.mem_cons_self, precedence] at tight
  obtain ⟨argument, derived⟩ := applied
  have written := TokenKind.unaryOperator?_eq_some_iff.mp stands
  exact ⟨_, (Derives.unary written derived).loosen tight⟩

/-- A balanced sequence with a value derives at every level that its exposed operators allow. -/
theorem derives_of_value {environment : Environment} {tokens : List Token} {word : UInt32}
    {level : Nat} (value : environment.value tokens = .ok word)
    (balanced : isBalanced tokens = true) (ranked : ∀ token ∈ tokens, token.Ranked)
    (le : level ≤ 7) (loose : ∀ operator index, (operator, index) ∈ exposedOperators tokens →
      level ≤ operator.precedence) : ∃ tree, Derives level tokens tree := by
  induction tokens using division_induction generalizing word level with
  | step tokens parts =>
    have fits := divide_fits tokens
    have mem : ∀ part ∈ (divide tokens).parts, ∀ token ∈ part, token.Ranked :=
      fun part member token among => ranked token (mem_of_mem_parts member among)
    rw [environment.value_eq] at value
    cases divided : divide tokens with
    | nothing => rw [divided] at value; cases value
    | operatorless first => rw [divided] at value; cases value
    | single token =>
      rw [divided] at value fits
      cases fits
      exact ⟨_, (Derives.operand (isOperand_of_value value)).loosen le⟩
    | enclosed interior =>
      rw [divided] at value fits parts mem
      have rankedInside := mem interior List.mem_cons_self
      obtain ⟨opening, closing, rfl, opens, closes, inside⟩ := (enclosed?_eq_some_iff ..).mp fits
      obtain ⟨inner, derived⟩ := parts interior List.mem_cons_self value inside rankedInside
        (by omega) fun operator index exposed => precedence_pos_of_exposed rankedInside exposed
      exact ⟨_, (Derives.grouped opens closes derived).loosen le⟩
    | leading first rest =>
      rw [divided] at value fits parts mem
      simp only [Environment.valueOfParts] at value
      cases stands : first.kind.unaryOperator? with
      | none => rw [stands] at value; cases value
      | some unary =>
        rw [stands] at value
        obtain ⟨_, inner, -⟩ := exists_of_bind_eq_ok value
        have balancedRest : isBalanced rest = true := by
          obtain ⟨-, -, -, notOpen, notClose⟩ := TokenKind.of_unaryOperator? stands
          rw [fits.1] at balanced
          exact (isBalanced_cons_iff notOpen notClose rest).mp balanced
        apply derives_of_divide_leading divided stands balanced ranked loose
        have rankedRest := mem rest List.mem_cons_self
        apply parts rest List.mem_cons_self inner balancedRest rankedRest (by omega)
        intro other index exposed
        exact precedence_of_divide_leading divided stands balancedRest ranked exposed
    | around left operator right =>
      obtain ⟨balancedLeft, balancedRight⟩ := isBalanced_of_divide_around divided balanced
      obtain ⟨exposed, before, after⟩ := precedence_of_divide_around divided balanced
      rw [divided] at value fits parts mem
      obtain ⟨rfl, -⟩ := fits
      obtain ⟨_, leftValue, value⟩ := exists_of_bind_eq_ok value
      obtain ⟨_, rightValue, value⟩ := exists_of_bind_eq_ok value
      cases stands : operator.kind.binaryOperator? with
      | none => simp only [stands] at value; cases value
      | some binary =>
        obtain ⟨-, -, precedence, -⟩ := TokenKind.of_binaryOperator? stands
        rw [← ranked operator (by simp)] at precedence
        rw [precedence] at before after
        have bound := binary.level_le
        have memberRight : right ∈ [left, right] := by simp
        obtain ⟨_, derivedLeft⟩ := parts left List.mem_cons_self leftValue balancedLeft
          (mem left List.mem_cons_self) (by omega) before
        obtain ⟨_, derivedRight⟩ := parts right memberRight rightValue balancedRight
          (mem right memberRight) (by omega) after
        have written := TokenKind.binaryOperator?_eq_some_iff.mp stands
        refine ⟨_, (Derives.binary written derivedLeft derivedRight).loosen ?_⟩
        rw [← precedence]
        exact loose operator _ exposed

/-! ## Whole sequences -/

/-- Evaluation computes the grammar: a derived sequence has one tree, its outcome is the meaning of
that tree and no structural error, and a sequence that does not derive is an error. -/
theorem run_computes_grammar (environment : Environment) (tokens : List Token)
    (ranked : ∀ token ∈ tokens, token.Ranked) :
    (∀ tree, Derives 1 tokens tree →
      (environment.run tokens).outcome = tree.denote environment ∧
        (∀ other, Derives 1 tokens other → other = tree) ∧
          ∀ error, (environment.run tokens).outcome = .error error → error.isStructural = false) ∧
      ((¬∃ tree, Derives 1 tokens tree) →
        ∃ error, (environment.run tokens).outcome = .error error) := by
  refine ⟨?_, ?_⟩
  · intro tree derivation
    have parsed := derivation.parsed ranked
    have outcome : (environment.run tokens).outcome = tree.denote environment := by
      rw [environment.outcome_run, (unpaired?_eq_none_iff tokens).mpr derivation.isBalanced]
      exact parsed.value_eq environment
    refine ⟨outcome, ?_, ?_⟩
    · intro other derivedToo
      exact (derivedToo.parsed ranked).unique parsed
    · intro error failed
      exact derivation.denote_not_isStructural (outcome.symm.trans failed)
  · intro underivable
    rw [environment.outcome_run]
    cases unpaired : unpaired? tokens with
    | some offset => exact ⟨_, rfl⟩
    | none =>
      cases value : environment.value tokens with
      | error error => exact ⟨error, rfl⟩
      | ok word =>
        have balanced := (unpaired?_eq_none_iff tokens).mp unpaired
        refine absurd (derives_of_value value balanced ranked (by decide) ?_) underivable
        intro operator index exposed
        exact precedence_pos_of_exposed ranked exposed

/-- In `-$eax*$eax-$eax` the difference is taken last, although a prefix operator comes first. -/
theorem run_computes_grammar_difference :
    let eax (offset : Nat) : Token := ⟨.register, 0, "eax", offset⟩
    let tokens : List Token :=
      [⟨.negate, 6, "-", 0⟩, eax 1, ⟨.star, 5, "*", 5⟩, eax 6, ⟨.minus, 4, "-", 10⟩, eax 11]
    let environment : Environment :=
      ⟨fun _ => some 3, fun address _ _ => .error (.fault address), fun _ => none, false⟩
    (∀ token ∈ tokens, token.Ranked) ∧ (∃ tree, Derives 1 tokens tree) ∧
      (environment.run tokens).outcome = .ok (-12) := by
  intro eax tokens environment
  have ranked : ∀ token ∈ tokens, token.Ranked := by decide
  have operand (level offset : Nat) (le : level ≤ 7) :
      Derives level [eax offset] (.operand (eax offset)) := (Derives.operand rfl).loosen le
  have negated : Derives 6 [⟨.negate, 6, "-", 0⟩, eax 1] (.unary .negate (.operand (eax 1))) :=
    .unary rfl (operand 6 1 (by decide))
  have product := @Derives.binary ⟨.star, 5, "*", 5⟩ .multiply _ _ _ _ rfl
    (negated.loosen (by decide)) (operand _ 6 (by decide))
  have difference := @Derives.binary ⟨.minus, 4, "-", 10⟩ .subtract _ _ _ _ rfl
    (product.loosen (by decide)) (operand _ 11 (by decide))
  have derivation := difference.loosen (by decide : 1 ≤ 4)
  refine ⟨ranked, ⟨_, derivation⟩, ?_⟩
  exact ((run_computes_grammar environment tokens ranked).1 _ derivation).1.trans rfl

end GuestProbe
