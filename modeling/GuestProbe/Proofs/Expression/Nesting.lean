import GuestProbe.Expression.Parentheses
import Mathlib.Data.List.Induction

/-! # Nesting depth

The number of open parentheses tells everything about pairing. `depthAfter?` composes along a
sequence (`depthAfter?_append`), the stack of `unpaired?` is empty at the end exactly for balanced
sequences (`unpaired?_eq_none_iff`), and the scan of `leavesOpen` from the right agrees with the
depth reached from the left (`leavesOpen_eq_of_depthAfter?`). A balanced part can be left out of a
sequence without a difference to the nesting of the rest (`leavesOpen_around`,
`isBalanced_around_iff`).
-/

namespace GuestProbe

section Depth

variable {token : Token} {depth reached : Nat}

theorem depthAfter?_open (opens : token.kind = .openParen) (depth : Nat) (rest : List Token) :
    depthAfter? depth (token :: rest) = depthAfter? (depth + 1) rest := by
  simp only [depthAfter?, opens]

theorem depthAfter?_close_zero (closes : token.kind = .closeParen) (rest : List Token) :
    depthAfter? 0 (token :: rest) = none := by
  simp only [depthAfter?, closes]

theorem depthAfter?_close_succ (closes : token.kind = .closeParen) (depth : Nat)
    (rest : List Token) : depthAfter? (depth + 1) (token :: rest) = depthAfter? depth rest := by
  simp only [depthAfter?, closes]

theorem depthAfter?_plain (notOpen : token.kind ≠ .openParen) (notClose : token.kind ≠ .closeParen)
    (depth : Nat) (rest : List Token) :
    depthAfter? depth (token :: rest) = depthAfter? depth rest := by
  rcases token with ⟨kind, precedence, text, offset⟩
  cases kind with
  | openParen => exact absurd rfl notOpen
  | closeParen => exact absurd rfl notClose
  | _ => rfl

/-- The depth after a sequence is the depth after its second part, from the depth after the first
part on. -/
theorem depthAfter?_append (depth : Nat) (left right : List Token) :
    depthAfter? depth (left ++ right) =
      (depthAfter? depth left).bind fun between => depthAfter? between right := by
  induction left generalizing depth with
  | nil => rfl
  | cons token rest ih =>
    rw [List.cons_append]
    by_cases opens : token.kind = .openParen
    · rw [depthAfter?_open opens, depthAfter?_open opens, ih]
    by_cases closes : token.kind = .closeParen
    · cases depth with
      | zero => rw [depthAfter?_close_zero closes, depthAfter?_close_zero closes]; rfl
      | succ outer => rw [depthAfter?_close_succ closes, depthAfter?_close_succ closes, ih]
    · rw [depthAfter?_plain opens closes, depthAfter?_plain opens closes, ih]

/-- A sequence that stays within its own parentheses does so inside any others. -/
theorem depthAfter?_add {tokens : List Token} (own : depthAfter? depth tokens = some reached)
    (around : Nat) : depthAfter? (depth + around) tokens = some (reached + around) := by
  induction tokens generalizing depth with
  | nil => cases own; rfl
  | cons token rest ih =>
    by_cases opens : token.kind = .openParen
    · rw [depthAfter?_open opens] at own ⊢
      rw [Nat.add_right_comm]
      exact ih own
    by_cases closes : token.kind = .closeParen
    · cases depth with
      | zero => rw [depthAfter?_close_zero closes] at own; cases own
      | succ outer =>
        rw [depthAfter?_close_succ closes] at own
        rw [Nat.add_right_comm, depthAfter?_close_succ closes]
        exact ih own
    · rw [depthAfter?_plain opens closes] at own ⊢
      exact ih own

end Depth

theorem isBalanced_iff (tokens : List Token) :
    isBalanced tokens = true ↔ depthAfter? 0 tokens = some 0 := by
  simp [isBalanced]

/-- After a balanced sequence the depth is what it was. -/
theorem depthAfter?_of_isBalanced {tokens : List Token} (balanced : isBalanced tokens = true)
    (depth : Nat) : depthAfter? depth tokens = some depth := by
  simpa using depthAfter?_add ((isBalanced_iff tokens).mp balanced) depth

theorem isBalanced_append_iff {left : List Token} (balanced : isBalanced left = true)
    (right : List Token) : isBalanced (left ++ right) = true ↔ isBalanced right = true := by
  rw [isBalanced_iff, isBalanced_iff, depthAfter?_append, depthAfter?_of_isBalanced balanced]
  rfl

theorem isBalanced_cons_iff {token : Token} (notOpen : token.kind ≠ .openParen)
    (notClose : token.kind ≠ .closeParen) (rest : List Token) :
    isBalanced (token :: rest) = true ↔ isBalanced rest = true := by
  rw [isBalanced_iff, isBalanced_iff, depthAfter?_plain notOpen notClose]

theorem isBalanced_grouped {opening closing : Token} {interior : List Token}
    (opens : opening.kind = .openParen) (closes : closing.kind = .closeParen)
    (balanced : isBalanced interior = true) :
    isBalanced (opening :: interior ++ [closing]) = true := by
  rw [isBalanced_iff, List.cons_append, depthAfter?_open opens, depthAfter?_append,
    depthAfter?_of_isBalanced balanced, Option.bind_some, depthAfter?_close_succ closes]
  rfl

/-- A single token is balanced only if it is no parenthesis. -/
theorem not_paren_of_isBalanced {token : Token} (balanced : isBalanced [token] = true) :
    token.kind ≠ .openParen ∧ token.kind ≠ .closeParen := by
  rw [isBalanced_iff] at balanced
  constructor
  · intro opens
    rw [depthAfter?_open opens] at balanced
    cases balanced
  · intro closes
    rw [depthAfter?_close_zero closes] at balanced
    cases balanced

/-- A parenthesis that a balanced sequence starts with is closed before the sequence ends, so what
stands between it and a token after the sequence is not balanced. -/
theorem not_isBalanced_of_open_left {opening : Token} {inside after : List Token}
    (opens : opening.kind = .openParen) (balanced : isBalanced (opening :: inside) = true) :
    isBalanced (inside ++ after) ≠ true := by
  intro whole
  rw [isBalanced_iff, depthAfter?_open opens] at balanced
  rw [isBalanced_iff, depthAfter?_append] at whole
  obtain ⟨between, reached, -⟩ := Option.bind_eq_some_iff.mp whole
  have shifted := depthAfter?_add reached 1
  rw [balanced] at shifted
  cases shifted

/-- The open parentheses that the search keeps count the depth. -/
theorem unpairedAfter?_eq_none_iff (pending : List Nat) (tokens : List Token) :
    unpairedAfter? pending tokens = none ↔ depthAfter? pending.length tokens = some 0 := by
  induction tokens generalizing pending with
  | nil => simp [unpairedAfter?, depthAfter?]
  | cons token rest ih =>
    rcases token with ⟨kind, precedence, text, offset⟩
    cases kind with
    | openParen => exact ih (offset :: pending)
    | closeParen =>
      cases pending with
      | nil => simp [unpairedAfter?, depthAfter?]
      | cons innermost outer => exact ih outer
    | _ => exact ih pending

/-- No parenthesis lacks a partner exactly when the sequence is balanced. -/
theorem unpaired?_eq_none_iff (tokens : List Token) :
    unpaired? tokens = none ↔ isBalanced tokens = true := by
  rw [isBalanced_iff]
  exact unpairedAfter?_eq_none_iff [] tokens

/-- Read from the right, the closing parentheses that await a partner use up the open ones, and the
others await their partners in what stands before. -/
theorem opensBefore_reverse_append {tokens : List Token} {reached : Nat}
    (depth : depthAfter? 0 tokens = some reached) (awaiting : Nat) (outside : List Token) :
    opensBefore awaiting (tokens.reverse ++ outside) =
      (decide (awaiting < reached) || opensBefore (awaiting - reached) outside) := by
  induction tokens using List.reverseRecOn generalizing awaiting reached with
  | nil => cases depth; simp
  | append_singleton earlier token ih =>
    rw [depthAfter?_append] at depth
    obtain ⟨before, reachedBefore, last⟩ := Option.bind_eq_some_iff.mp depth
    rw [List.reverse_append, List.reverse_singleton, List.singleton_append, List.cons_append]
    by_cases opens : token.kind = .openParen
    · rw [depthAfter?_open opens] at last
      cases last
      cases awaiting with
      | zero => simp [opensBefore, opens]
      | succ awaiting => simpa [opensBefore, opens] using ih reachedBefore awaiting
    by_cases closes : token.kind = .closeParen
    · cases before with
      | zero => rw [depthAfter?_close_zero closes] at last; cases last
      | succ outer =>
        rw [depthAfter?_close_succ closes] at last
        cases last
        simpa [opensBefore, closes] using ih reachedBefore (awaiting + 1)
    · rw [depthAfter?_plain opens closes] at last
      cases last
      rw [← ih reachedBefore awaiting]
      rcases token with ⟨kind, precedence, text, offset⟩
      cases kind with
      | openParen => exact absurd rfl opens
      | closeParen => exact absurd rfl closes
      | _ => rfl

/-- A sequence whose closing parentheses all have partners leaves one open exactly when its depth
is not zero at the end. -/
theorem leavesOpen_eq_of_depthAfter? {tokens : List Token} {reached : Nat}
    (depth : depthAfter? 0 tokens = some reached) :
    leavesOpen tokens = decide (0 < reached) := by
  have scanned := opensBefore_reverse_append depth 0 []
  rwa [List.append_nil, opensBefore, Bool.or_false] at scanned

/-- Within a balanced sequence, no parenthesis is open at a position exactly when the part before
it is balanced. -/
theorem leavesOpen_take_eq_false_iff {tokens : List Token} (balanced : isBalanced tokens = true)
    (position : Nat) :
    leavesOpen (tokens.take position) = false ↔ isBalanced (tokens.take position) = true := by
  rw [isBalanced_iff, ← List.take_append_drop position tokens, depthAfter?_append] at balanced
  obtain ⟨reached, depth, -⟩ := Option.bind_eq_some_iff.mp balanced
  rw [isBalanced_iff, leavesOpen_eq_of_depthAfter? depth, depth]
  simp

/-! ## Balanced parts -/

theorem opensBefore_append {tokens : List Token} {awaiting : Nat}
    (opens : opensBefore awaiting tokens = true) (outside : List Token) :
    opensBefore awaiting (tokens ++ outside) = true := by
  induction tokens generalizing awaiting with
  | nil => cases opens
  | cons token rest ih =>
    rcases token with ⟨kind, precedence, text, offset⟩
    cases kind with
    | openParen =>
      cases awaiting with
      | zero => rfl
      | succ awaiting => exact ih opens
    | _ => exact ih opens

/-- A parenthesis that a part leaves open is open behind any sequence before it. -/
theorem leavesOpen_append {part : List Token} (opens : leavesOpen part = true)
    (before : List Token) : leavesOpen (before ++ part) = true := by
  rw [leavesOpen, List.reverse_append]
  exact opensBefore_append opens before.reverse

theorem opensBefore_append_congr {outside other : List Token}
    (same : ∀ awaiting, opensBefore awaiting outside = opensBefore awaiting other)
    (tokens : List Token) (awaiting : Nat) :
    opensBefore awaiting (tokens ++ outside) = opensBefore awaiting (tokens ++ other) := by
  induction tokens generalizing awaiting with
  | nil => exact same awaiting
  | cons token rest ih =>
    rw [List.cons_append, List.cons_append]
    simp only [opensBefore, ih]

/-- A balanced part makes no difference to what is open behind it. -/
theorem leavesOpen_around {part : List Token} (balanced : isBalanced part = true)
    (before after : List Token) :
    leavesOpen (before ++ (part ++ after)) = leavesOpen (before ++ after) := by
  have depth := (isBalanced_iff part).mp balanced
  simp only [leavesOpen, List.reverse_append, List.append_assoc]
  refine opensBefore_append_congr (fun awaiting => ?_) after.reverse 0
  simpa using opensBefore_reverse_append depth awaiting before.reverse

/-- A balanced part makes no difference to whether a sequence is balanced. -/
theorem isBalanced_around_iff {part : List Token} (balanced : isBalanced part = true)
    (before after : List Token) :
    isBalanced (before ++ (part ++ after)) = true ↔ isBalanced (before ++ after) = true := by
  rw [isBalanced_iff, isBalanced_iff, depthAfter?_append, depthAfter?_append]
  have same : ∀ depth, depthAfter? depth (part ++ after) = depthAfter? depth after := by
    intro depth
    rw [depthAfter?_append, depthAfter?_of_isBalanced balanced, Option.bind_some]
  simp only [same]

end GuestProbe
