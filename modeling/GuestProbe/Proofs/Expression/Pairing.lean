import GuestProbe.Proofs.Expression.Failure

/-! # Partners of parentheses

Two parentheses are partners if what stands between them is balanced. In a balanced sequence every
parenthesis has a partner (`Balanced.isPaired`). A sequence that is not balanced either closes a
parenthesis behind a balanced part (`exists_unmatched_closing`) or ends with a balanced part behind
the parenthesis that it leaves open last (`LeavesOpen`).

The search for a parenthesis to blame keeps only the offsets of the open ones, and finds the first
closing one without a partner, or else the last opening one. An evaluation starts with this search
and reports an unbalanced parenthesis for no other reason (`run_blames_unpaired`).
-/

namespace GuestProbe

/-- The parentheses of the sequence pair up. -/
inductive Balanced : List Token → Prop where
  | nil : Balanced []
  | other {token : Token} (notOpen : token.kind ≠ .openParen) (notClose : token.kind ≠ .closeParen) :
      Balanced [token]
  | grouped {opening closing : Token} {interior : List Token} (opens : opening.kind = .openParen)
      (closes : closing.kind = .closeParen) (inside : Balanced interior) :
      Balanced (opening :: interior ++ [closing])
  | append {left right : List Token} (before : Balanced left) (after : Balanced right) :
      Balanced (left ++ right)

/-- The token at the first index opens a parenthesis and the token at the second index closes it. -/
def Partners (tokens : List Token) (first second : Nat) : Prop :=
  ∃ before opening interior closing after,
    tokens = before ++ opening :: (interior ++ closing :: after) ∧
      opening.kind = .openParen ∧ closing.kind = .closeParen ∧ Balanced interior ∧
      first = before.length ∧ second = before.length + 1 + interior.length

/-- The token at the index is a parenthesis with a partner. -/
def IsPaired (tokens : List Token) (index : Nat) : Prop :=
  ∃ other, Partners tokens index other ∨ Partners tokens other index

/-- The token at the index has the given kind, which is that of a parenthesis, and no partner. -/
def Unpaired (tokens : List Token) (kind : TokenKind) (index : Nat) : Prop :=
  (∃ token, tokens[index]? = some token ∧ token.kind = kind) ∧ ¬IsPaired tokens index

/-! ## Balanced sequences -/

theorem Balanced.isBalanced {tokens : List Token} (balanced : Balanced tokens) :
    isBalanced tokens = true := by
  induction balanced with
  | nil => rfl
  | other notOpen notClose => exact (isBalanced_cons_iff notOpen notClose []).mpr rfl
  | grouped opens closes _ ih => exact isBalanced_grouped opens closes ih
  | append _ _ ihLeft ihRight => exact (isBalanced_append_iff ihLeft _).mpr ihRight

/-- The sequence leaves the given number of parentheses open, and its others pair up. -/
inductive LeavesOpen : Nat → List Token → Prop where
  | nothing {tokens : List Token} (balanced : Balanced tokens) : LeavesOpen 0 tokens
  | another {outer : Nat} {front back : List Token} {opening : Token}
      (before : LeavesOpen outer front) (opens : opening.kind = .openParen)
      (inside : Balanced back) : LeavesOpen (outer + 1) (front ++ opening :: back)

theorem LeavesOpen.append_balanced {depth : Nat} {tokens part : List Token}
    (leaves : LeavesOpen depth tokens) (balanced : Balanced part) :
    LeavesOpen depth (tokens ++ part) := by
  cases leaves with
  | nothing whole => exact .nothing (whole.append balanced)
  | another before opens inside =>
    rw [List.append_assoc, List.cons_append]
    exact .another before opens (inside.append balanced)

/-- The depth that is reached behind a sequence counts the parentheses that it leaves open. -/
theorem leavesOpen_of_depthAfter? {tokens : List Token} {depth : Nat}
    (reached : depthAfter? 0 tokens = some depth) : LeavesOpen depth tokens := by
  induction tokens using List.reverseRecOn generalizing depth with
  | nil =>
    cases reached
    exact .nothing .nil
  | append_singleton earlier last ih =>
    rw [depthAfter?_append] at reached
    obtain ⟨between, before, after⟩ := Option.bind_eq_some_iff.mp reached
    by_cases opens : last.kind = .openParen
    · rw [depthAfter?_open opens] at after
      cases after
      exact .another (ih before) opens .nil
    by_cases closes : last.kind = .closeParen
    · cases between with
      | zero => rw [depthAfter?_close_zero closes] at after; cases after
      | succ outer =>
        rw [depthAfter?_close_succ closes] at after
        cases after
        -- The parenthesis that was open last and what stands behind it become a group.
        cases ih before with
        | @another _ front back opening outside opens inside =>
          rw [List.append_assoc]
          exact outside.append_balanced (.grouped opens closes inside)
    · rw [depthAfter?_plain opens closes] at after
      cases after
      exact (ih before).append_balanced (.other opens closes)

theorem isBalanced_iff_balanced (tokens : List Token) :
    isBalanced tokens = true ↔ Balanced tokens := by
  refine ⟨fun balanced => ?_, Balanced.isBalanced⟩
  cases leavesOpen_of_depthAfter? ((isBalanced_iff tokens).mp balanced) with
  | nothing balanced => exact balanced

/-- A balanced part is not the start of one that closes a parenthesis behind it. -/
theorem Balanced.not_append_closing {part : List Token} (balanced : Balanced part) {closing : Token}
    (closes : closing.kind = .closeParen) (after : List Token) :
    ¬Balanced (part ++ closing :: after) := by
  intro longer
  have depth := (isBalanced_iff _).mp longer.isBalanced
  rw [depthAfter?_append, depthAfter?_of_isBalanced balanced.isBalanced, Option.bind_some,
    depthAfter?_close_zero closes] at depth
  cases depth

/-- A sequence that closes more than it has opened is balanced before the first place where it does
so. -/
theorem exists_unmatched_closing {tokens : List Token} (none : depthAfter? 0 tokens = none) :
    ∃ before closing after, tokens = before ++ closing :: after ∧ closing.kind = .closeParen ∧
      Balanced before := by
  induction tokens using List.reverseRecOn with
  | nil => cases none
  | append_singleton earlier last ih =>
    cases reached : depthAfter? 0 earlier with
    | none =>
      obtain ⟨before, closing, after, rfl, closes, balanced⟩ := ih reached
      exact ⟨before, closing, after ++ [last], by simp, closes, balanced⟩
    | some depth =>
      rw [depthAfter?_append, reached, Option.bind_some] at none
      by_cases opens : last.kind = .openParen
      · rw [depthAfter?_open opens] at none
        cases none
      by_cases closes : last.kind = .closeParen
      · cases depth with
        | zero =>
          have balanced := (isBalanced_iff_balanced _).mp ((isBalanced_iff _).mpr reached)
          exact ⟨earlier, last, [], rfl, closes, balanced⟩
        | succ outer =>
          rw [depthAfter?_close_succ closes] at none
          cases none
      · rw [depthAfter?_plain opens closes] at none
        cases none

/-! ## Partners in longer sequences -/

section Partners

variable {left right tokens : List Token} {first second index : Nat}

theorem Partners.append_right (partners : Partners left first second) (right : List Token) :
    Partners (left ++ right) first second := by
  obtain ⟨before, opening, interior, closing, after, rfl, places⟩ := partners
  exact ⟨before, opening, interior, closing, after ++ right, by simp, places⟩

theorem Partners.append_left (partners : Partners right first second) (left : List Token) :
    Partners (left ++ right) (left.length + first) (left.length + second) := by
  obtain ⟨before, opening, interior, closing, after, rfl, opens, closes, inside, rfl, rfl⟩ :=
    partners
  refine ⟨left ++ before, opening, interior, closing, after, by simp, opens, closes, inside, ?_, ?_⟩
  · rw [List.length_append]
  · rw [List.length_append, Nat.add_assoc, Nat.add_assoc, Nat.add_assoc]

theorem IsPaired.append_right (paired : IsPaired left index) (right : List Token) :
    IsPaired (left ++ right) index := by
  obtain ⟨other, partners | partners⟩ := paired
  · exact ⟨other, .inl (partners.append_right right)⟩
  · exact ⟨other, .inr (partners.append_right right)⟩

theorem IsPaired.append_left (paired : IsPaired right index) (left : List Token) :
    IsPaired (left ++ right) (left.length + index) := by
  obtain ⟨other, partners | partners⟩ := paired
  · exact ⟨left.length + other, .inl (partners.append_left left)⟩
  · exact ⟨left.length + other, .inr (partners.append_left left)⟩

/-- The first of two partners opens a parenthesis. -/
theorem Partners.opens (partners : Partners tokens first second) :
    ∃ token, tokens[first]? = some token ∧ token.kind = .openParen := by
  obtain ⟨before, opening, interior, closing, after, rfl, opens, -, -, rfl, -⟩ := partners
  exact ⟨opening, by simp, opens⟩

/-- The second of two partners closes a parenthesis. -/
theorem Partners.closes (partners : Partners tokens first second) :
    ∃ token, tokens[second]? = some token ∧ token.kind = .closeParen := by
  obtain ⟨before, opening, interior, closing, after, rfl, -, closes, -, -, rfl⟩ := partners
  refine ⟨closing, ?_, closes⟩
  rw [Nat.add_assoc, List.getElem?_append_right (Nat.le_add_right ..), Nat.add_sub_cancel_left,
    Nat.add_comm, List.getElem?_cons_succ, List.getElem?_append_right (Nat.le_refl _), Nat.sub_self,
    List.getElem?_cons_zero]

/-- Every parenthesis of a balanced sequence has a partner. -/
theorem Balanced.isPaired (balanced : Balanced tokens) {token : Token}
    (found : tokens[index]? = some token)
    (parenthesis : token.kind = .openParen ∨ token.kind = .closeParen) : IsPaired tokens index := by
  induction balanced generalizing index with
  | nil => cases found
  | other notOpen notClose =>
    obtain rfl := List.mem_singleton.mp (List.mem_of_getElem? found)
    rcases parenthesis with opens | closes
    · exact absurd opens notOpen
    · exact absurd closes notClose
  | @grouped opening closing interior opens closes inside ih =>
    have outermost : Partners (opening :: interior ++ [closing]) 0 (interior.length + 1) :=
      ⟨[], opening, interior, closing, [], rfl, opens, closes, inside, rfl, by simp; omega⟩
    cases index with
    | zero => exact ⟨_, .inl outermost⟩
    | succ index =>
      rw [List.cons_append, List.getElem?_cons_succ] at found
      by_cases within : index < interior.length
      · rw [List.getElem?_append_left within] at found
        have paired := ((ih found).append_right [closing]).append_left [opening]
        rwa [List.length_singleton, Nat.add_comm 1] at paired
      · have bound := (List.getElem?_eq_some_iff.mp found).1
        rw [List.length_append, List.length_singleton] at bound
        have last : index = interior.length := by omega
        exact ⟨0, .inr (last ▸ outermost)⟩
  | @append left right before after ihLeft ihRight =>
    by_cases within : index < left.length
    · rw [List.getElem?_append_left within] at found
      exact (ihLeft found).append_right right
    · rw [List.getElem?_append_right (Nat.not_lt.mp within)] at found
      have paired := (ihRight found).append_left left
      rwa [Nat.add_sub_cancel' (Nat.not_lt.mp within)] at paired

/-- A sequence that never closes more than it has opened has partners for all closing
parentheses. -/
theorem isPaired_of_closing {depth : Nat} (reached : depthAfter? 0 tokens = some depth)
    {token : Token} (found : tokens[index]? = some token) (closes : token.kind = .closeParen) :
    IsPaired tokens index := by
  obtain ⟨bound, -⟩ := List.getElem?_eq_some_iff.mp found
  have split := eq_take_append_drop_of_getElem? found
  have length : (tokens.take index).length = index := List.length_take_of_le (Nat.le_of_lt bound)
  rw [split, depthAfter?_append] at reached
  obtain ⟨between, before, after⟩ := Option.bind_eq_some_iff.mp reached
  cases between with
  | zero => rw [depthAfter?_close_zero closes] at after; cases after
  | succ outer =>
    generalize tokens.take index = front at split length before
    cases leavesOpen_of_depthAfter? before with
    | @another _ front back opening _ opens inside =>
      rw [List.append_assoc, List.cons_append] at split
      refine ⟨front.length, .inr ⟨front, opening, back, token, tokens.drop (index + 1), split,
        opens, closes, inside, rfl, ?_⟩⟩
      rw [← length, List.length_append, List.length_cons, Nat.add_assoc, Nat.add_comm 1]

/-- A closing parenthesis behind a balanced part has no partner. -/
theorem Balanced.not_isPaired_closing (balanced : Balanced left) {closing : Token}
    (closes : closing.kind = .closeParen) (after : List Token) :
    ¬IsPaired (left ++ closing :: after) left.length := by
  rintro ⟨other, partners | partners⟩
  · obtain ⟨token, found, opens⟩ := partners.opens
    rw [List.getElem?_append_right (Nat.le_refl _), Nat.sub_self] at found
    cases found
    cases opens.symm.trans closes
  · obtain ⟨before, opening, interior, last, rest, same, opens, -, inside, -, place⟩ := partners
    have split : left ++ closing :: after = (before ++ opening :: interior) ++ last :: rest := by
      rw [same, List.append_assoc, List.cons_append]
    obtain ⟨rfl, -⟩ := List.append_inj split
      (by rw [place, List.length_append, List.length_cons]; omega)
    -- The parenthesis that would be the partner is still open at the end of the part.
    have depth := (isBalanced_iff _).mp balanced.isBalanced
    rw [depthAfter?_append] at depth
    obtain ⟨between, -, later⟩ := Option.bind_eq_some_iff.mp depth
    rw [depthAfter?_open opens, depthAfter?_of_isBalanced inside.isBalanced] at later
    cases later

/-- An opening parenthesis before a balanced part at the end has no partner. -/
theorem Balanced.not_isPaired_opening (balanced : Balanced right) {opening : Token}
    (opens : opening.kind = .openParen) (before : List Token) :
    ¬IsPaired (before ++ opening :: right) before.length := by
  rintro ⟨other, partners | partners⟩
  · obtain ⟨front, first, interior, closing, after, same, -, closes, inside, place, -⟩ := partners
    obtain ⟨-, behind⟩ := List.append_inj same place
    obtain ⟨-, rfl⟩ := List.cons.inj behind
    exact inside.not_append_closing closes after balanced
  · obtain ⟨token, found, closes⟩ := partners.closes
    rw [List.getElem?_append_right (Nat.le_refl _), Nat.sub_self] at found
    cases found
    cases closes.symm.trans opens

/-- A part of a sequence that is balanced has no parenthesis without a partner. -/
theorem Unpaired.lt_length {kind : TokenKind} (unpaired : Unpaired (left ++ right) kind index)
    (parenthesis : kind = .openParen ∨ kind = .closeParen) (balanced : Balanced right) :
    index < left.length := by
  obtain ⟨⟨token, found, rfl⟩, lacks⟩ := unpaired
  by_contra behind
  rw [List.getElem?_append_right (Nat.not_lt.mp behind)] at found
  have paired := (balanced.isPaired found parenthesis).append_left left
  rw [Nat.add_sub_cancel' (Nat.not_lt.mp behind)] at paired
  exact lacks paired

theorem Unpaired.length_le {kind : TokenKind} (unpaired : Unpaired (left ++ right) kind index)
    (parenthesis : kind = .openParen ∨ kind = .closeParen) (balanced : Balanced left) :
    left.length ≤ index := by
  obtain ⟨⟨token, found, rfl⟩, lacks⟩ := unpaired
  by_contra before
  rw [List.getElem?_append_left (Nat.not_le.mp before)] at found
  exact lacks ((balanced.isPaired found parenthesis).append_right right)

end Partners

/-! ## The parenthesis to blame -/

/-- The token at the index is the first closing parenthesis without a partner or, if all closing
ones have partners, the last opening one without a partner. -/
inductive Blamed (tokens : List Token) (index : Nat) : Prop where
  | closing (unpaired : Unpaired tokens .closeParen index)
      (first : ∀ other, Unpaired tokens .closeParen other → index ≤ other)
  | opening (unpaired : Unpaired tokens .openParen index)
      (closed : ∀ other, ¬Unpaired tokens .closeParen other)
      (last : ∀ other, Unpaired tokens .openParen other → other ≤ index)

/-- At most one parenthesis is blamed. -/
theorem Blamed.unique {tokens : List Token} {first second : Nat} (blamed : Blamed tokens first)
    (again : Blamed tokens second) : first = second := by
  cases blamed with
  | closing unpaired least =>
    cases again with
    | closing unpairedAgain leastAgain =>
      exact Nat.le_antisymm (least second unpairedAgain) (leastAgain first unpaired)
    | opening _ closed => exact absurd unpaired (closed first)
  | opening unpaired closed greatest =>
    cases again with
    | closing unpairedAgain => exact absurd unpairedAgain (closed second)
    | opening unpairedAgain _ greatestAgain =>
      exact Nat.le_antisymm (greatestAgain first unpaired) (greatest second unpairedAgain)

section Search

variable {token : Token} (rest : List Token)

theorem unpairedAfter?_open (opens : token.kind = .openParen) (pending : List Nat) :
    unpairedAfter? pending (token :: rest) = unpairedAfter? (token.offset :: pending) rest := by
  simp only [unpairedAfter?, opens]

theorem unpairedAfter?_close_nil (closes : token.kind = .closeParen) :
    unpairedAfter? [] (token :: rest) = some token.offset := by
  simp only [unpairedAfter?, closes]

theorem unpairedAfter?_close_cons (closes : token.kind = .closeParen) (innermost : Nat)
    (outer : List Nat) :
    unpairedAfter? (innermost :: outer) (token :: rest) = unpairedAfter? outer rest := by
  simp only [unpairedAfter?, closes]

end Search

/-- The search keeps no parenthesis of a balanced part. -/
theorem Balanced.unpairedAfter?_append {part : List Token} (balanced : Balanced part)
    (pending : List Nat) (rest : List Token) :
    unpairedAfter? pending (part ++ rest) = unpairedAfter? pending rest := by
  induction balanced generalizing pending rest with
  | nil => rfl
  | @other token notOpen notClose =>
    rcases token with ⟨kind, precedence, text, offset⟩
    cases kind with
    | openParen => exact absurd rfl notOpen
    | closeParen => exact absurd rfl notClose
    | _ => rfl
  | @grouped opening closing interior opens closes inside ih =>
    rw [List.append_assoc, List.cons_append, unpairedAfter?_open _ opens, ih,
      List.singleton_append, unpairedAfter?_close_cons rest closes]
  | append _ _ ihLeft ihRight => rw [List.append_assoc, ihLeft, ihRight]

/-- Behind a sequence that closes no more than it has opened the search keeps some parentheses. -/
theorem LeavesOpen.exists_pending {depth : Nat} {tokens : List Token}
    (leaves : LeavesOpen depth tokens) :
    ∃ pending, ∀ rest, unpairedAfter? [] (tokens ++ rest) = unpairedAfter? pending rest := by
  induction leaves with
  | nothing balanced => exact ⟨[], balanced.unpairedAfter?_append []⟩
  | @another outer front back opening before opens inside ih =>
    obtain ⟨pending, found⟩ := ih
    refine ⟨opening.offset :: pending, fun rest => ?_⟩
    rw [List.append_assoc, List.cons_append, found,
      unpairedAfter?_open _ opens]
    exact inside.unpairedAfter?_append _ rest

/-- In a sequence that is not balanced the search finds the parenthesis to blame. -/
theorem exists_blamed {tokens : List Token} (unbalanced : ¬Balanced tokens) :
    ∃ index token, tokens[index]? = some token ∧ Blamed tokens index ∧
      unpaired? tokens = some token.offset := by
  cases reached : depthAfter? 0 tokens with
  | none =>
    obtain ⟨before, closing, after, rfl, closes, balanced⟩ := exists_unmatched_closing reached
    refine ⟨before.length, closing, by simp, .closing ?_ ?_, ?_⟩
    · exact ⟨⟨closing, by simp, closes⟩, balanced.not_isPaired_closing closes after⟩
    · exact fun other unpaired => unpaired.length_le (.inr rfl) balanced
    · rw [unpaired?, balanced.unpairedAfter?_append, unpairedAfter?_close_nil after closes]
  | some depth =>
    have leaves := leavesOpen_of_depthAfter? reached
    cases leaves with
    | nothing balanced => exact absurd balanced unbalanced
    | @another outer front back opening before opens inside =>
      refine ⟨front.length, opening, by simp, .opening ?_ ?_ ?_, ?_⟩
      · exact ⟨⟨opening, by simp, opens⟩, inside.not_isPaired_opening opens front⟩
      · rintro other ⟨⟨token, found, closes⟩, lacks⟩
        exact lacks (isPaired_of_closing reached found closes)
      · intro other unpaired
        rw [List.append_cons] at unpaired
        have bound := unpaired.lt_length (.inl rfl) inside
        rw [List.length_append, List.length_singleton] at bound
        exact Nat.le_of_lt_succ bound
      · obtain ⟨pending, found⟩ := before.exists_pending
        have behind := inside.unpairedAfter?_append (opening.offset :: pending) []
        rw [List.append_nil] at behind
        rw [unpaired?, found, unpairedAfter?_open back opens, behind]
        rfl

/-- The search finds a parenthesis exactly if it is to be blamed. -/
theorem unpaired?_eq_some_iff (tokens : List Token) (offset : Nat) :
    unpaired? tokens = some offset ↔
      ∃ index token, tokens[index]? = some token ∧ Blamed tokens index ∧ token.offset = offset := by
  constructor
  · intro found
    have unbalanced : ¬Balanced tokens := by
      intro balanced
      rw [(unpaired?_eq_none_iff tokens).mpr balanced.isBalanced] at found
      cases found
    obtain ⟨index, token, here, blamed, same⟩ := exists_blamed unbalanced
    exact ⟨index, token, here, blamed, Option.some.inj (same.symm.trans found)⟩
  · rintro ⟨index, token, here, blamed, rfl⟩
    have unbalanced : ¬Balanced tokens := by
      intro balanced
      cases blamed with
      | closing unpaired =>
        obtain ⟨⟨token, found, closes⟩, lacks⟩ := unpaired
        exact lacks (balanced.isPaired found (.inr closes))
      | opening unpaired =>
        obtain ⟨⟨token, found, opens⟩, lacks⟩ := unpaired
        exact lacks (balanced.isPaired found (.inl opens))
    obtain ⟨other, otherToken, there, blamedOther, found⟩ := exists_blamed unbalanced
    obtain rfl := blamed.unique blamedOther
    cases here.symm.trans there
    exact found

/-! ## Evaluations -/

namespace Environment

/-- Past the search, no step reports an unbalanced parenthesis. -/
theorem value_ne_unbalancedParenthesis (environment : Environment) (tokens : List Token)
    (offset : Nat) : environment.value tokens ≠ .error (.unbalancedParenthesis offset) := by
  intro failed
  cases value_failsAt failed with
  | @operand token _ member failed =>
    obtain ⟨-, parenthesis⟩ := operand_concerns failed
    rcases parenthesis with isParenthesis | isParenthesis <;>
      · simp only [operand, isParenthesis] at failed
        cases failed
  | unary failed => cases UnaryOperator.meaning_not_isStructural failed
  | binary _ _ failed => cases BinaryOperator.meaning_not_isStructural failed

theorem outcome_run_eq_unbalanced_iff (environment : Environment) (tokens : List Token)
    (offset : Nat) :
    (environment.run tokens).outcome = .error (.unbalancedParenthesis offset) ↔
      unpaired? tokens = some offset := by
  rw [outcome_run]
  cases unpaired? tokens with
  | none => simp [environment.value_ne_unbalancedParenthesis tokens offset]
  | some found => simp

/-- Nothing is evaluated after a parenthesis has been blamed. -/
theorem events_run_of_unpaired {tokens : List Token} {offset : Nat}
    (found : unpaired? tokens = some offset) (environment : Environment) :
    (environment.run tokens).events = [] := by
  rw [run, found]
  split <;> rfl

end Environment

/-- An evaluation reports an unbalanced parenthesis exactly if the parentheses do not pair up,
whatever else is wrong with the tokens: nothing is evaluated before that. The report names the
offset of the first closing parenthesis without a partner or, if all closing ones have partners, of
the last opening one without a partner. -/
theorem run_blames_unpaired (environment : Environment) (tokens : List Token) :
    ((∃ offset, (environment.run tokens).outcome = .error (.unbalancedParenthesis offset)) ↔
      ¬Balanced tokens) ∧
    (∀ offset, (environment.run tokens).outcome = .error (.unbalancedParenthesis offset) ↔
      ∃ index token, tokens[index]? = some token ∧ Blamed tokens index ∧ token.offset = offset) ∧
    (¬Balanced tokens → (environment.run tokens).events = []) := by
  have found (unbalanced : ¬Balanced tokens) : ∃ offset, unpaired? tokens = some offset := by
    obtain ⟨_, token, -, -, found⟩ := exists_blamed unbalanced
    exact ⟨token.offset, found⟩
  refine ⟨?reported, ?place, ?silent⟩
  case reported =>
    simp only [environment.outcome_run_eq_unbalanced_iff]
    refine ⟨?_, found⟩
    rintro ⟨offset, unpaired⟩ balanced
    rw [(unpaired?_eq_none_iff tokens).mpr balanced.isBalanced] at unpaired
    cases unpaired
  case place =>
    intro offset
    rw [environment.outcome_run_eq_unbalanced_iff, unpaired?_eq_some_iff]
  case silent =>
    intro unbalanced
    obtain ⟨offset, unpaired⟩ := found unbalanced
    exact Environment.events_run_of_unpaired unpaired environment

end GuestProbe
