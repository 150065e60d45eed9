import GuestProbe.Proofs.Expression.Stratification
import Mathlib.Algebra.Group.Int.Defs

/-! # Arithmetic without bounds

An expression of operands, parentheses, sums, differences, products, quotients and negations has an
exact value among the integers (`SyntaxTree.integer?`). A word stands for the integers of one
residue modulo `2 ^ 32`. All operators but division respect residues, so intermediate values may
exceed a word; the operands of a division have to be signed words themselves
(`SyntaxTree.DivisionsFit`).

Under this condition an evaluation gives the residue of the exact value
(`run_agrees_with_integers`).
-/

namespace GuestProbe

/-! ## Exact values -/

/-- The exact result of an arithmetic operator; quotients are truncated. -/
def BinaryOperator.integer? (operator : BinaryOperator) (left right : Int) : Option Int :=
  match operator with
  | .add => some (left + right)
  | .subtract => some (left - right)
  | .multiply => some (left * right)
  | .divide => some (left.tdiv right)
  | .or | .and | .equal | .notEqual => none

/-- The exact result of negation, the only arithmetic operator with one operand. -/
def UnaryOperator.integer? (operator : UnaryOperator) (argument : Int) : Option Int :=
  match operator with
  | .negate => some (-argument)
  | .dereference | .not => none

/-- The exact value of a tree, in which operands count as unsigned words. There is none if an
operand has no word or an operator is not arithmetic. -/
def SyntaxTree.integer? (environment : Environment) : SyntaxTree → Option Int
  | .operand token =>
      match (environment.operand token).outcome with
      | .ok word => some word.toNat
      | .error _ => none
  | .grouped inner => inner.integer? environment
  | .unary operator argument => do
      let number ← argument.integer? environment
      operator.integer? number
  | .binary operator _ left right => do
      let leftNumber ← left.integer? environment
      let rightNumber ← right.integer? environment
      operator.integer? leftNumber rightNumber

/-- The number is one that a word can hold in two's complement. -/
def IsSignedWord (number : Int) : Prop :=
  -2 ^ 31 ≤ number ∧ number < 2 ^ 31

instance (number : Int) : Decidable (IsSignedWord number) :=
  inferInstanceAs (Decidable (_ ∧ _))

/-- At every division of the tree the exact values of both operands are signed words, and that of
the divisor is not zero. -/
def SyntaxTree.DivisionsFit (environment : Environment) : SyntaxTree → Prop
  | .operand _ => True
  | .grouped inner => inner.DivisionsFit environment
  | .unary _ argument => argument.DivisionsFit environment
  | .binary operator _ left right =>
      left.DivisionsFit environment ∧ right.DivisionsFit environment ∧
        (operator = .divide →
          (∀ dividend ∈ left.integer? environment, IsSignedWord dividend) ∧
          ∀ divisor ∈ right.integer? environment, IsSignedWord divisor ∧ divisor ≠ 0)

/-- A token of this kind can be part of an arithmetic expression. -/
def TokenKind.isArithmetic : TokenKind → Bool
  | .plus | .minus | .star | .slash | .negate | .openParen | .closeParen => true
  | kind => kind.isOperand

/-! ## Residues -/

theorem toNat_ofInt (number : Int) : ((UInt32.ofInt number).toNat : Int) = number % 2 ^ 32 := by
  rw [UInt32.ofInt, UInt32.toNat_ofNat']
  omega

/-- The word of a signed number, read as signed. -/
theorem toInt_toInt32_ofInt {number : Int} (signed : IsSignedWord number) :
    (UInt32.ofInt number).toInt32.toInt = number := by
  obtain ⟨lower, upper⟩ := signed
  have residue : ((UInt32.ofInt number).toNat : Int) = number % (2 ^ 32 : Nat) :=
    toNat_ofInt number
  rw [Int32.toInt, BitVec.toInt_eq_toNat_bmod]
  change ((UInt32.ofInt number).toNat : Int).bmod (2 ^ 32) = number
  rw [residue, Int.emod_bmod]
  apply Int.bmod_eq_of_le
  · omega
  · omega

theorem ofInt_ne_zero {number : Int} (signed : IsSignedWord number) (nonzero : number ≠ 0) :
    UInt32.ofInt number ≠ 0 := by
  intro zero
  have same := toInt_toInt32_ofInt signed
  rw [zero] at same
  exact nonzero same.symm

theorem UnaryOperator.meaning_ofInt (environment : Environment) {operator : UnaryOperator}
    {argument number : Int} (exactly : operator.integer? argument = some number) :
    operator.meaning environment (.ofInt argument) = .ok (.ofInt number) := by
  cases operator with
  | negate =>
    cases exactly
    simp only [meaning, UInt32.ofInt_neg, ofInt_toNat]
  | _ => cases exactly

/-- An operator on residues gives the residue of its exact result, if the operands of a division
are signed words. -/
theorem BinaryOperator.meaning_ofInt {operator : BinaryOperator} {left right number : Int}
    (exactly : operator.integer? left right = some number)
    (fits : operator = .divide → IsSignedWord left ∧ IsSignedWord right ∧ right ≠ 0)
    (offset : Nat) :
    operator.meaning offset (.ofInt left) (.ofInt right) = .ok (.ofInt number) := by
  cases operator with
  | add =>
    cases exactly
    simp only [meaning, UInt32.ofInt_add, ofInt_toNat]
  | subtract =>
    cases exactly
    simp only [meaning, Int.sub_eq_add_neg, UInt32.ofInt_add, UInt32.ofInt_neg, ofInt_toNat]
  | multiply =>
    cases exactly
    simp only [meaning, UInt32.ofInt_mul, ofInt_toNat]
  | divide =>
    cases exactly
    obtain ⟨signedLeft, signedRight, nonzero⟩ := fits rfl
    rw [meaning, if_neg (ofInt_ne_zero signedRight nonzero), toInt_toInt32_ofInt signedLeft,
      toInt_toInt32_ofInt signedRight]
  | _ => cases exactly

/-! ## Trees -/

/-- A tree with an exact value means the residue of that value. -/
theorem SyntaxTree.denote_eq_ofInt {environment : Environment} {tree : SyntaxTree} {number : Int}
    (exactly : tree.integer? environment = some number) (fits : tree.DivisionsFit environment) :
    tree.denote environment = .ok (.ofInt number) := by
  induction tree generalizing number with
  | operand token =>
    simp only [integer?] at exactly
    split at exactly
    · next word value =>
      cases exactly
      rw [denote, value, ofInt_toNat]
    · cases exactly
  | grouped inner ih => exact ih exactly fits
  | unary operator argument ih =>
    obtain ⟨inner, exactInner, applied⟩ := Option.bind_eq_some_iff.mp exactly
    rw [denote, ih exactInner fits]
    exact operator.meaning_ofInt environment applied
  | binary operator offset left right ihLeft ihRight =>
    obtain ⟨fitsLeft, fitsRight, division⟩ := fits
    obtain ⟨leftNumber, exactLeft, applied⟩ := Option.bind_eq_some_iff.mp exactly
    obtain ⟨rightNumber, exactRight, applied⟩ := Option.bind_eq_some_iff.mp applied
    rw [denote, ihLeft exactLeft fitsLeft, ihRight exactRight fitsRight]
    -- only a division asks for more than the residues of its operands
    refine BinaryOperator.meaning_ofInt applied (fun isDivision => ?_) offset
    obtain ⟨dividend, divisor⟩ := division isDivision
    exact ⟨dividend _ exactLeft, divisor _ exactRight⟩

/-! ## Derivations -/

theorem UnaryOperator.exists_integer? {operator : UnaryOperator}
    (isArithmetic : operator.kind.isArithmetic = true) (argument : Int) :
    ∃ number, operator.integer? argument = some number := by
  cases operator with
  | negate => exact ⟨-argument, rfl⟩
  | dereference | not => cases isArithmetic

theorem BinaryOperator.exists_integer? {operator : BinaryOperator}
    (isArithmetic : operator.kind.isArithmetic = true) (left right : Int) :
    ∃ number, operator.integer? left right = some number := by
  cases operator with
  | add | subtract | multiply | divide => exact ⟨_, rfl⟩
  | or | and | equal | notEqual => cases isArithmetic

namespace Derives

variable {environment : Environment} {level : Nat} {tokens : List Token} {tree : SyntaxTree}

/-- An arithmetic expression has an exact value if its operands have words. -/
theorem exists_integer? (derivation : Derives level tokens tree)
    (arithmetic : ∀ token ∈ tokens, token.kind.isArithmetic = true)
    (resolved : ∀ token ∈ tokens, token.kind.isOperand = true →
      ∃ word, (environment.operand token).outcome = .ok word) :
    ∃ number, tree.integer? environment = some number := by
  induction derivation with
  | @operand token isOperand =>
    obtain ⟨word, value⟩ := resolved token List.mem_cons_self isOperand
    exact ⟨word.toNat, by rw [SyntaxTree.integer?, value]⟩
  | grouped _ _ _ ih =>
    refine ih (fun token member => arithmetic token ?_) fun token member => resolved token ?_
    · simp [member]
    · simp [member]
  | @unary token _ _ _ stands _ ih =>
    obtain ⟨inner, exactInner⟩ :=
      ih (fun token member => arithmetic token (List.mem_cons_of_mem _ member))
        fun token member => resolved token (List.mem_cons_of_mem _ member)
    obtain ⟨number, applied⟩ :=
      UnaryOperator.exists_integer? (stands ▸ arithmetic token List.mem_cons_self) inner
    exact ⟨number, Option.bind_eq_some_iff.mpr ⟨inner, exactInner, applied⟩⟩
  | @binary token _ before after _ _ stands _ _ ihLeft ihRight =>
    have left : ∀ other ∈ before, other ∈ before ++ token :: after := by simp +contextual
    have right : ∀ other ∈ after, other ∈ before ++ token :: after := by simp +contextual
    obtain ⟨leftNumber, exactLeft⟩ := ihLeft (fun other member => arithmetic other (left _ member))
      fun other member => resolved other (left _ member)
    obtain ⟨rightNumber, exactRight⟩ :=
      ihRight (fun other member => arithmetic other (right _ member))
        fun other member => resolved other (right _ member)
    obtain ⟨number, applied⟩ :=
      BinaryOperator.exists_integer? (stands ▸ arithmetic token (by simp)) leftNumber rightNumber
    exact ⟨number, Option.bind_eq_some_iff.mpr ⟨leftNumber, exactLeft,
      Option.bind_eq_some_iff.mpr ⟨rightNumber, exactRight, applied⟩⟩⟩
  | looser _ ih => exact ih arithmetic resolved

/-- Without a division sign there is no division. -/
theorem divisionsFit (derivation : Derives level tokens tree)
    (undivided : ∀ token ∈ tokens, token.kind ≠ .slash) : tree.DivisionsFit environment := by
  induction derivation with
  | operand => trivial
  | grouped _ _ _ ih =>
    refine ih fun token member => undivided token ?_
    simp [member]
  | unary _ _ ih => exact ih fun token member => undivided token (List.mem_cons_of_mem _ member)
  | @binary token _ before after _ _ stands _ _ ihLeft ihRight =>
    refine ⟨ihLeft fun other member => undivided other (by simp [member]),
      ihRight fun other member => undivided other (by simp [member]), ?_⟩
    rintro rfl
    exact absurd stands (undivided token (by simp))
  | looser _ ih => exact ih undivided

end Derives

/-- An expression of operands with words, parentheses and arithmetic operators has an exact value.
If the operands of its divisions are signed words and no divisor is zero, as is the case without
divisions, the expression evaluates to the residue of the exact value modulo `2 ^ 32`. -/
theorem run_agrees_with_integers (environment : Environment) {tokens : List Token}
    {tree : SyntaxTree} (derivation : Derives 1 tokens tree)
    (ranked : ∀ token ∈ tokens, token.Ranked)
    (arithmetic : ∀ token ∈ tokens, token.kind.isArithmetic = true)
    (resolved : ∀ token ∈ tokens, token.kind.isOperand = true →
      ∃ word, (environment.operand token).outcome = .ok word) :
    ∃ number, tree.integer? environment = some number ∧
      (tree.DivisionsFit environment ∨ (∀ token ∈ tokens, token.kind ≠ .slash) →
        ∃ word, (environment.run tokens).outcome = .ok word ∧
          (word.toNat : Int) = number % 2 ^ 32) := by
  obtain ⟨number, exactly⟩ := derivation.exists_integer? arithmetic resolved
  refine ⟨number, exactly, fun suitable => ?_⟩
  have fits : tree.DivisionsFit environment := suitable.elim id derivation.divisionsFit
  refine ⟨.ofInt number, ?_, toNat_ofInt number⟩
  rw [environment.outcome_run, (unpaired?_eq_none_iff tokens).mpr derivation.isBalanced]
  exact ((derivation.parsed ranked).value_eq environment).trans
    (SyntaxTree.denote_eq_ofInt exactly fits)

/-- In `($ecx-$edx)/$ecx*$eax` the dividend is negative and the product takes more than 32 bits. -/
theorem run_agrees_with_integers_product :
    let register (name : String) (offset : Nat) : Token := ⟨.register, 0, name, offset⟩
    let tokens : List Token :=
      [⟨.openParen, 7, "(", 0⟩, register "ecx" 1, ⟨.minus, 4, "-", 5⟩, register "edx" 6,
        ⟨.closeParen, 7, ")", 10⟩, ⟨.slash, 5, "/", 11⟩, register "ecx" 12, ⟨.star, 5, "*", 16⟩,
        register "eax" 17]
    let difference : SyntaxTree :=
      .binary .subtract 5 (.operand (register "ecx" 1)) (.operand (register "edx" 6))
    let tree : SyntaxTree :=
      .binary .multiply 16
        (.binary .divide 11 (.grouped difference) (.operand (register "ecx" 12)))
        (.operand (register "eax" 17))
    let environment : Environment :=
      ⟨fun name => if name = "ecx" then some 2 else if name = "edx" then some 9
          else some 0xFFFFFFFF,
        fun address _ _ => .error (.fault address), fun _ => none, false⟩
    Derives 1 tokens tree ∧ (∀ token ∈ tokens, token.Ranked) ∧
      (∀ token ∈ tokens, token.kind.isArithmetic = true) ∧
      (∀ token ∈ tokens, token.kind.isOperand = true →
        ∃ word, (environment.operand token).outcome = .ok word) ∧
      tree.integer? environment = some (-3 * 0xFFFFFFFF) ∧ tree.DivisionsFit environment ∧
      (environment.run tokens).outcome = .ok 3 := by
  intro register tokens difference tree environment
  have ranked : ∀ token ∈ tokens, token.Ranked := by decide
  have arithmetic : ∀ token ∈ tokens, token.kind.isArithmetic = true := by decide
  have resolved : ∀ token ∈ tokens, token.kind.isOperand = true →
      ∃ word, (environment.operand token).outcome = .ok word := by
    simp [tokens, register, TokenKind.isOperand, environment, Environment.operand]
  have atom (name : String) (offset : Nat) {level : Nat} (le : level ≤ 7) :
      Derives level [register name offset] (.operand (register name offset)) :=
    (Derives.operand rfl).loosen le
  have derivedDifference := @Derives.binary ⟨.minus, 4, "-", 5⟩ .subtract _ _ _ _ rfl
    (atom "ecx" 1 (by decide)) (atom "edx" 6 (by decide))
  have group := @Derives.grouped ⟨.openParen, 7, "(", 0⟩ ⟨.closeParen, 7, ")", 10⟩ _ _ rfl rfl
    (derivedDifference.loosen (by decide))
  have quotient := @Derives.binary ⟨.slash, 5, "/", 11⟩ .divide _ _ _ _ rfl
    (group.loosen (by decide)) (atom "ecx" 12 (by decide))
  have product := @Derives.binary ⟨.star, 5, "*", 16⟩ .multiply _ _ _ _ rfl
    quotient (atom "eax" 17 (by decide))
  have derivation : Derives 1 tokens tree := product.loosen (by decide)
  have exactly : tree.integer? environment = some (-3 * 0xFFFFFFFF) := by decide
  have dividend : ∀ number ∈ difference.integer? environment, IsSignedWord number := by decide
  have divisor : ∀ number ∈ (SyntaxTree.operand (register "ecx" 12)).integer? environment,
      IsSignedWord number ∧ number ≠ 0 := by
    decide
  have fits : tree.DivisionsFit environment :=
    ⟨⟨⟨trivial, trivial, nofun⟩, trivial, fun _ => ⟨dividend, divisor⟩⟩, trivial, nofun⟩
  obtain ⟨number, exactlyToo, agrees⟩ :=
    run_agrees_with_integers environment derivation ranked arithmetic resolved
  obtain ⟨word, value, residue⟩ := agrees (.inl fits)
  obtain rfl := Option.some.inj (exactly.symm.trans exactlyToo)
  have same : word = 3 := UInt32.toNat.inj (Int.ofNat.inj residue)
  exact ⟨derivation, ranked, arithmetic, resolved, exactly, fits, same ▸ value⟩

end GuestProbe
