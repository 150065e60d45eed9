import GuestProbe.Expression.Operator

/-! # Operations with domains

Cutting a text at a byte position, reading a token by its index, taking a range of tokens,
subtracting natural numbers and dividing words are partial operations. Here each of them checks its
arguments, and a `Guarded` computation stops with a `Violation` where an argument is outside the
domain. Loops and recursions get a number of rounds and violate it by going on after them, so that
a computation without a violation ends within its rounds; it is then `settled`.

The lemmas below each operation give its result for arguments in the domain.
-/

namespace GuestProbe

open Text

/-- What is wrong with an operation outside its domain. -/
inductive Violation where
  /-- A text is cut inside a character or beyond its end. -/
  | noBoundary
  /-- No token has the index. -/
  | noElement
  /-- The range of tokens ends before it starts or after the last token. -/
  | noRange
  /-- The difference of two positions is negative. -/
  | underflow
  /-- A step of a scan consumes no bytes. -/
  | standstill
  /-- A loop or a recursion goes on after its last round. -/
  | exhausted
  /-- A word is divided by zero. -/
  | zeroDivisor
deriving DecidableEq, Repr

/-- A computation that stops where it leaves the domain of an operation. -/
abbrev Guarded := Except Violation

/-- A guarded computation with the outcome of an expression as its result. -/
abbrev GuardedOutcome := ExceptT ExpressionError Guarded

section Settled

variable {Value Result : Type}

/-- The computation that has the given outcome. -/
def settled (outcome : Except ExpressionError Value) : GuardedOutcome Value :=
  ExceptT.mk (pure outcome)

theorem run_settled (outcome : Except ExpressionError Value) :
    (settled outcome).run = .ok outcome := rfl

@[simp] theorem settled_ok_bind (value : Value) (next : Value → GuardedOutcome Result) :
    (settled (.ok value) >>= next) = next value := rfl

/-- Settled steps make a settled computation. -/
theorem settled_bind_settled (outcome : Except ExpressionError Value)
    (next : Value → Except ExpressionError Result) :
    (settled outcome >>= fun value => settled (next value)) = settled (outcome >>= next) := by
  cases outcome <;> rfl

@[simp] theorem liftM_pure_bind (value : Value) (next : Value → GuardedOutcome Result) :
    ((liftM (pure value : Guarded Value) : GuardedOutcome Value) >>= next) = next value := rfl

end Settled

namespace Guarded

/-! ## Texts -/

/-- The part of a text before a byte offset. -/
def textBefore (offset : Nat) (text : List Char) : Guarded (List Char) :=
  match splitBytes? offset text with
  | some (front, _) => pure front
  | none => throw .noBoundary

/-- The part of a text from a byte offset on. -/
def textAfter (offset : Nat) (text : List Char) : Guarded (List Char) :=
  match splitBytes? offset text with
  | some (_, back) => pure back
  | none => throw .noBoundary

theorem textBefore_byteLength (front back : List Char) :
    textBefore (byteLength front) (front ++ back) = pure front := by
  rw [textBefore, splitBytes?_byteLength]

theorem textAfter_byteLength (front back : List Char) :
    textAfter (byteLength front) (front ++ back) = pure back := by
  rw [textAfter, splitBytes?_byteLength]

/-! ## Sequences of tokens -/

/-- The token with an index. -/
def element (tokens : List Token) (index : Nat) : Guarded Token :=
  match tokens[index]? with
  | some token => pure token
  | none => throw .noElement

/-- The tokens with indices from `start` on and below `stop`. -/
def slice (tokens : List Token) (start stop : Nat) : Guarded (List Token) :=
  if start ≤ stop ∧ stop ≤ tokens.length then pure ((tokens.take stop).drop start)
  else throw .noRange

theorem element_of_getElem? {tokens : List Token} {index : Nat} {token : Token}
    (found : tokens[index]? = some token) : element tokens index = pure token := by
  rw [element, found]

theorem element_append (before : List Token) (token : Token) (after : List Token) :
    element (before ++ token :: after) before.length = pure token :=
  element_of_getElem? (by simp)

theorem slice_append (before part after : List Token) :
    slice (before ++ (part ++ after)) before.length (before.length + part.length) = pure part := by
  have within : before.length ≤ before.length + part.length ∧
      before.length + part.length ≤ (before ++ (part ++ after)).length := by
    simp only [List.length_append]
    omega
  rw [slice, if_pos within, ← List.append_assoc, ← List.length_append, List.take_left,
    List.drop_left]

/-! ## Numbers -/

/-- The difference of two positions. -/
def minus (position distance : Nat) : Guarded Nat :=
  if distance ≤ position then pure (position - distance) else throw .underflow

/-- The signed quotient of two words. -/
def quotient (dividend divisor : UInt32) : Guarded UInt32 :=
  if divisor = 0 then throw .zeroDivisor else pure (signedQuotient dividend divisor)

theorem minus_of_le {position distance : Nat} (within : distance ≤ position) :
    minus position distance = pure (position - distance) :=
  if_pos within

theorem minus_one_succ (position : Nat) : minus (position + 1) 1 = pure position :=
  minus_of_le (Nat.le_add_left 1 position)

end Guarded

end GuestProbe
