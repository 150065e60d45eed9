import GuestProbe.Proofs.Expression.Stratification
import Mathlib.Data.List.Basic

/-! # Every token is consumed once

A successful evaluation of a sequence takes one of four forms, each with the evaluations of its
parts inside (`Environment.Reduces`). Each form consumes a pair of parentheses or one other token
and records one value, in the end. So the recorded ranges are as many as the tokens without those
that close a parenthesis, they come in post-order, and memory is read for each dereference
(`run_consumes_tokens_once`). Failures only stop this: at most one sequence more is entered than
there are tokens.
-/

namespace GuestProbe

/-! ## Events -/

/-- A range of tokens, by the index of the first one and their number. -/
structure TokenRange where
  start : Nat
  count : Nat
deriving DecidableEq, Repr

namespace TokenRange

/-- The range is a proper part of another one. -/
def IsPartOf (inner outer : TokenRange) : Prop :=
  outer.start ≤ inner.start ∧ inner.start + inner.count ≤ outer.start + outer.count ∧
    inner.count < outer.count

/-- All of the range stands before all of another one. -/
def IsLeftOf (left right : TokenRange) : Prop :=
  left.start + left.count ≤ right.start

end TokenRange

/-- Any two ranges are nested or disjoint; the inner or the left one comes first. -/
def InPostOrder (ranges : List TokenRange) : Prop :=
  ranges.Pairwise fun earlier later => earlier.IsPartOf later ∨ earlier.IsLeftOf later

namespace InPostOrder

variable {ranges : List TokenRange}

theorem append_whole {whole : TokenRange} (ordered : InPostOrder ranges)
    (parts : ∀ range ∈ ranges, range.IsPartOf whole) : InPostOrder (ranges ++ [whole]) := by
  refine List.pairwise_append.mpr ⟨ordered, List.pairwise_singleton .., ?_⟩
  intro range member other isWhole
  rw [List.mem_singleton.mp isWhole]
  exact .inl (parts range member)

theorem nodup (ordered : InPostOrder ranges) (nonempty : ∀ range ∈ ranges, 0 < range.count) :
    ranges.Nodup := by
  refine List.Pairwise.imp_of_mem ?_ ordered
  rintro range _ member - (⟨-, -, shorter⟩ | apart) rfl
  · exact Nat.lt_irrefl _ shorter
  · have positive := nonempty range member
    unfold TokenRange.IsLeftOf at apart
    omega

end InPostOrder

namespace EvaluationEvent

/-- The range whose value is recorded. -/
def range? : EvaluationEvent → Option TokenRange
  | .reduced start count _ => some ⟨start, count⟩
  | _ => none

def isEntry : EvaluationEvent → Bool
  | .entered _ _ => true
  | _ => false

def isRead : EvaluationEvent → Bool
  | .read _ => true
  | _ => false

end EvaluationEvent

/-- The ranges whose values are recorded. -/
def recordedRanges (events : List EvaluationEvent) : List TokenRange :=
  events.filterMap EvaluationEvent.range?

/-- The indices of the tokens for which memory is read: every read is for the sequence whose value
is recorded next, and so for its first token. -/
def readers : List EvaluationEvent → List Nat
  | [] => []
  | event :: later =>
      if event.isRead then
        ((recordedRanges later).head?.map TokenRange.start).toList ++ readers later
      else readers later

/-- What happens for a sequence with a value, from what happens for its parts. -/
def bracketed (start count : Nat) (events : List EvaluationEvent) (word : UInt32) :
    List EvaluationEvent :=
  .entered start count :: (events ++ [.reduced start count word])

section Events

variable (start count : Nat) (events later : List EvaluationEvent) (word : UInt32)

@[simp] theorem recordedRanges_append :
    recordedRanges (events ++ later) = recordedRanges events ++ recordedRanges later :=
  List.filterMap_append

@[simp] theorem recordedRanges_bracketed :
    recordedRanges (bracketed start count events word) = recordedRanges events ++ [⟨start, count⟩] := by
  simp [bracketed, recordedRanges, List.filterMap_cons, EvaluationEvent.range?]

@[simp] theorem countP_isEntry_bracketed :
    (bracketed start count events word).countP EvaluationEvent.isEntry =
      events.countP EvaluationEvent.isEntry + 1 := by
  simp [bracketed, List.countP_cons, EvaluationEvent.isEntry]

@[simp] theorem countP_isRead_bracketed :
    (bracketed start count events word).countP EvaluationEvent.isRead =
      events.countP EvaluationEvent.isRead := by
  simp [bracketed, EvaluationEvent.isRead]

theorem readers_bracketed :
    readers (bracketed start count events word) = readers (events ++ [.reduced start count word]) :=
  rfl

/-- Reads before a record are for no later one. -/
theorem readers_append_of_record :
    readers (events ++ .reduced start count word :: later) =
      readers (events ++ [.reduced start count word]) ++ readers later := by
  induction events with
  | nil => rfl
  | cons event rest ih =>
    have next : (recordedRanges (rest ++ .reduced start count word :: later)).head? =
        (recordedRanges (rest ++ [.reduced start count word])).head? := by
      simp [List.head?_append, recordedRanges, EvaluationEvent.range?]
    simp only [List.cons_append, readers, ih, next]
    cases event.isRead <;> simp

end Events

namespace Environment

variable {environment : Environment} {start : Nat} {tokens : List Token}
  {events : List EvaluationEvent} {word : UInt32}

/-- A sequence is evaluated to a word, with the given events. -/
inductive Reduces (environment : Environment) :
    Nat → List Token → List EvaluationEvent → UInt32 → Prop where
  | single {start : Nat} {token : Token} {word : UInt32}
      (value : (environment.operand token).outcome = .ok word) :
      Reduces environment start [token]
        (bracketed start [token].length (environment.operand token).events word) word
  | enclosed {start : Nat} {opening closing : Token} {interior : List Token}
      {events : List EvaluationEvent} {word : UInt32} (opens : opening.kind = .openParen)
      (closes : closing.kind = .closeParen)
      (inside : Reduces environment (start + 1) interior events word) :
      Reduces environment start (opening :: interior ++ [closing])
        (bracketed start (opening :: interior ++ [closing]).length events word) word
  | leading {start : Nat} {first : Token} {rest : List Token} {operator : UnaryOperator}
      {events : List EvaluationEvent} {argument word : UInt32}
      (stands : first.kind.unaryOperator? = some operator)
      (after : Reduces environment (start + 1) rest events argument)
      (value : (environment.applyUnary operator argument).outcome = .ok word) :
      Reduces environment start (first :: rest)
        (bracketed start (first :: rest).length
          (events ++ (environment.applyUnary operator argument).events) word) word
  | around {start : Nat} {left right : List Token} {token : Token} {operator : BinaryOperator}
      {leftEvents rightEvents : List EvaluationEvent} {leftWord rightWord word : UInt32}
      (stands : token.kind.binaryOperator? = some operator)
      (before : Reduces environment start left leftEvents leftWord)
      (after : Reduces environment (start + left.length + 1) right rightEvents rightWord)
      (value : operator.apply token.offset leftWord rightWord = .ok word) :
      Reduces environment start (left ++ token :: right)
        (bracketed start (left ++ token :: right).length (leftEvents ++ rightEvents) word) word

/-- Every sequence that has a value is evaluated in one of these ways. -/
theorem reduces_of_value (success : (environment.reduce start tokens).outcome = .ok word) :
    environment.Reduces start tokens (environment.reduce start tokens).events word := by
  induction tokens using division_induction generalizing start word with
  | step tokens parts =>
    have value : (environment.evaluateParts start (divide tokens)).outcome = .ok word := by
      rwa [reduce_eq, outcome_recorded] at success
    have events : (environment.reduce start tokens).events = bracketed start tokens.length
        (environment.evaluateParts start (divide tokens)).events word := by
      rw [reduce_eq, events_recorded, value]
      rfl
    rw [events]
    have fits := divide_fits tokens
    cases divided : divide tokens with
    | nothing => rw [divided] at value; cases value
    | operatorless first => rw [divided] at value; cases value
    | single token =>
      rw [divided] at value fits
      cases fits
      exact .single value
    | enclosed interior =>
      rw [divided] at value fits parts
      obtain ⟨opening, closing, rfl, opens, closes, -⟩ := (enclosed?_eq_some_iff ..).mp fits
      have inside := parts interior List.mem_cons_self value
      exact .enclosed opens closes inside
    | leading first rest =>
      rw [divided] at value fits parts
      obtain ⟨rfl, -⟩ := fits
      simp only [evaluateParts] at value ⊢
      cases stands : first.kind.unaryOperator? with
      | none => rw [stands] at value; cases value
      | some operator =>
        simp only [stands] at value
        rw [Traced.outcome_bind] at value
        obtain ⟨argument, valueRest, applied⟩ := exists_of_bind_eq_ok value
        have after := parts rest List.mem_cons_self valueRest
        simp only
        rw [Traced.events_bind_of_ok valueRest]
        exact .leading stands after applied
    | around left token right =>
      rw [divided] at value fits parts
      obtain ⟨rfl, -⟩ := fits
      simp only [evaluateParts, Traced.outcome_bind] at value
      obtain ⟨leftWord, valueLeft, value⟩ := exists_of_bind_eq_ok value
      obtain ⟨rightWord, valueRight, value⟩ := exists_of_bind_eq_ok value
      have before := parts left List.mem_cons_self valueLeft
      have after := parts right (by simp [Division.parts]) valueRight
      rw [evaluateParts, Traced.events_bind_of_ok valueLeft, Traced.events_bind_of_ok valueRight]
      cases stands : token.kind.binaryOperator? with
      | none => rw [stands] at value; cases value
      | some operator =>
        simp only [stands] at value
        rw [Traced.events_ofExcept, List.append_nil]
        exact .around stands before after value

/-! ## Counting -/

section Counting

variable (environment) (token : Token) (operator : UnaryOperator)

@[simp] theorem recordedRanges_operand : recordedRanges (environment.operand token).events = [] := by
  rcases environment.events_operand token with none | ⟨name, assumed⟩
  · rw [none]
    rfl
  · rw [assumed]
    rfl

theorem countP_operand {counts : EvaluationEvent → Bool}
    (notAssumed : ∀ name, counts (.assumed name) = false) :
    (environment.operand token).events.countP counts = 0 := by
  rcases environment.events_operand token with none | ⟨name, assumed⟩
  · rw [none]
    rfl
  · simp [assumed, notAssumed]

@[simp] theorem recordedRanges_applyUnary :
    recordedRanges (environment.applyUnary operator word).events = [] := by
  rw [events_applyUnary]
  split <;> rfl

theorem countP_isEntry_applyUnary :
    (environment.applyUnary operator word).events.countP EvaluationEvent.isEntry = 0 := by
  rw [events_applyUnary]
  split <;> rfl

theorem countP_isRead_applyUnary :
    (environment.applyUnary operator word).events.countP EvaluationEvent.isRead =
      if operator = .dereference then 1 else 0 := by
  rw [events_applyUnary]
  split <;> rfl

end Counting

namespace Reduces

/-! ## What is consumed -/

/-- Every token but a closing parenthesis has its record. -/
theorem length_recordedRanges (reduces : environment.Reduces start tokens events word) :
    (recordedRanges events).length + tokens.countP (·.kind == .openParen) = tokens.length := by
  induction reduces with
  | single value =>
    obtain ⟨-, notOpen, -⟩ := TokenKind.of_isOperand (isOperand_of_value value)
    simp [notOpen]
  | enclosed opens closes _ ih =>
    simp [opens, closes]
    omega
  | leading stands _ _ ih =>
    obtain ⟨-, -, -, notOpen, -⟩ := TokenKind.of_unaryOperator? stands
    simp [notOpen]
    omega
  | around stands _ _ _ ihLeft ihRight =>
    obtain ⟨-, -, -, notOpen, -⟩ := TokenKind.of_binaryOperator? stands
    simp [notOpen]
    omega

/-- Every entry has its record. -/
theorem countP_isEntry (reduces : environment.Reduces start tokens events word) :
    events.countP EvaluationEvent.isEntry = (recordedRanges events).length := by
  induction reduces with
  | single =>
    rw [countP_isEntry_bracketed, countP_operand _ _ fun _ => rfl, recordedRanges_bracketed,
      recordedRanges_operand]
    rfl
  | enclosed _ _ _ ih => simp [ih]
  | leading _ _ _ ih => simp [countP_isEntry_applyUnary, ih]
  | around _ _ _ _ ihLeft ihRight => simp [ihLeft, ihRight, Nat.add_assoc]

theorem countP_isRead (reduces : environment.Reduces start tokens events word) :
    events.countP EvaluationEvent.isRead = tokens.countP (·.kind == .dereference) := by
  induction reduces with
  | single value =>
    have notDereference := TokenKind.ne_dereference_of_isOperand (isOperand_of_value value)
    rw [countP_isRead_bracketed, countP_operand _ _ fun _ => rfl]
    simp [notDereference]
  | enclosed opens closes _ ih => simp [opens, closes, ih]
  | leading stands _ _ ih =>
    have same := TokenKind.eq_dereference_iff stands
    simp [countP_isRead_applyUnary, List.countP_cons, same, ih]
  | around stands _ _ _ ihLeft ihRight =>
    have notDereference := TokenKind.ne_dereference_of_binaryOperator? stands
    simp [ihLeft, ihRight, notDereference]

/-! ## The order of the records -/

theorem of_mem_recordedRanges (reduces : environment.Reduces start tokens events word)
    {range : TokenRange} (member : range ∈ recordedRanges events) :
    0 < range.count ∧ start ≤ range.start ∧ range.start + range.count ≤ start + tokens.length := by
  induction reduces with
  | single =>
    rw [recordedRanges_bracketed, recordedRanges_operand, List.nil_append,
      List.mem_singleton] at member
    simp [member]
  | enclosed _ _ _ ih =>
    rw [recordedRanges_bracketed, List.mem_append, List.mem_singleton] at member
    rcases member with inside | rfl
    · have bounds := ih inside
      simp only [List.length_append, List.length_cons]
      omega
    · simp
  | leading _ _ _ ih =>
    rw [recordedRanges_bracketed, recordedRanges_append, recordedRanges_applyUnary,
      List.append_nil, List.mem_append, List.mem_singleton] at member
    rcases member with after | rfl
    · have bounds := ih after
      rw [List.length_cons]
      omega
    · simp
  | around _ _ _ _ ihLeft ihRight =>
    rw [recordedRanges_bracketed, recordedRanges_append, List.mem_append, List.mem_append,
      List.mem_singleton] at member
    rcases member with (before | after) | rfl
    · have bounds := ihLeft before
      rw [List.length_append, List.length_cons]
      omega
    · have bounds := ihRight after
      rw [List.length_append, List.length_cons]
      omega
    · simp only [List.length_append, List.length_cons]
      omega

theorem inPostOrder (reduces : environment.Reduces start tokens events word) :
    InPostOrder (recordedRanges events) := by
  induction reduces with
  | single =>
    rw [recordedRanges_bracketed, recordedRanges_operand]
    exact List.pairwise_singleton ..
  | enclosed _ _ inside ih =>
    rw [recordedRanges_bracketed]
    refine ih.append_whole fun range member => ?_
    have bounds := inside.of_mem_recordedRanges member
    simp only [TokenRange.IsPartOf, List.length_append, List.length_cons]
    omega
  | leading _ after _ ih =>
    rw [recordedRanges_bracketed, recordedRanges_append, recordedRanges_applyUnary,
      List.append_nil]
    refine ih.append_whole fun range member => ?_
    have bounds := after.of_mem_recordedRanges member
    simp only [TokenRange.IsPartOf, List.length_cons]
    omega
  | around _ before after _ ihLeft ihRight =>
    rw [recordedRanges_bracketed, recordedRanges_append]
    refine InPostOrder.append_whole (List.pairwise_append.mpr ⟨ihLeft, ihRight, ?_⟩) ?_
    · intro left inLeft right inRight
      have boundsLeft := before.of_mem_recordedRanges inLeft
      have boundsRight := after.of_mem_recordedRanges inRight
      refine .inr ?_
      unfold TokenRange.IsLeftOf
      omega
    · intro range member
      simp only [TokenRange.IsPartOf, List.length_append, List.length_cons]
      rcases List.mem_append.mp member with inLeft | inRight
      · have bounds := before.of_mem_recordedRanges inLeft
        omega
      · have bounds := after.of_mem_recordedRanges inRight
        omega

/-- The value of the whole sequence is recorded last. -/
theorem ends (reduces : environment.Reduces start tokens events word) :
    ∃ earlier, events = earlier ++ [.reduced start tokens.length word] := by
  cases reduces <;> exact ⟨_, (List.cons_append ..).symm⟩

/-! ## Reads -/

theorem readers_append (reduces : environment.Reduces start tokens events word)
    (later : List EvaluationEvent) :
    readers (events ++ later) = readers events ++ readers later := by
  obtain ⟨earlier, rfl⟩ := reduces.ends
  rw [List.append_assoc]
  exact readers_append_of_record ..

/-- The tokens for which memory is read are the dereferences, each once. -/
theorem readers_perm (reduces : environment.Reduces start tokens events word) :
    (readers events).Perm (tokens.findIdxs (·.kind == .dereference) start) := by
  induction reduces with
  | @single _ token _ value =>
    have notDereference := TokenKind.ne_dereference_of_isOperand (isOperand_of_value value)
    rw [readers_bracketed]
    rcases environment.events_operand token with none | ⟨name, assumed⟩
    · simp [none, notDereference, readers, EvaluationEvent.isRead]
    · simp [assumed, notDereference, readers, EvaluationEvent.isRead]
  | enclosed opens closes inside ih =>
    rw [readers_bracketed, inside.readers_append]
    simpa [opens, closes, List.findIdxs_append, readers, EvaluationEvent.isRead] using ih
  | @leading start _ _ operator _ _ _ stands after _ ih =>
    have same := TokenKind.eq_dereference_iff stands
    rw [readers_bracketed, List.append_assoc, after.readers_append, events_applyUnary,
      List.findIdxs_cons]
    by_cases asks : operator = .dereference
    · have own : ∀ address count word,
          readers [.read address, .reduced start count word] = [start] := fun _ _ _ => rfl
      simp only [same.mpr asks, asks, own, beq_self_eq_true, if_true, List.singleton_append]
      exact (List.perm_append_singleton ..).trans (ih.cons start)
    · simpa [same, asks, readers, EvaluationEvent.isRead] using ih
  | around stands before after _ ihLeft ihRight =>
    have notDereference := TokenKind.ne_dereference_of_binaryOperator? stands
    rw [readers_bracketed, List.append_assoc, before.readers_append, after.readers_append,
      List.findIdxs_append]
    simpa [notDereference, readers, EvaluationEvent.isRead] using ihLeft.append ihRight

end Reduces

/-! ## Entries -/

/-- On the way to a value every sequence that is entered has its own token. A failure ends the
evaluation of the last sequence that is entered. -/
theorem countP_isEntry_reduce_le (environment : Environment) (start : Nat) (tokens : List Token) :
    (environment.reduce start tokens).events.countP EvaluationEvent.isEntry ≤ tokens.length + 1 := by
  induction tokens using division_induction generalizing start with
  | step tokens parts =>
    have fits := divide_fits tokens
    have own : (environment.reduce start tokens).events.countP EvaluationEvent.isEntry =
        (environment.evaluateParts start (divide tokens)).events.countP EvaluationEvent.isEntry
          + 1 := by
      rw [reduce_eq, events_recorded, List.countP_cons, List.countP_append]
      cases (environment.evaluateParts start (divide tokens)).outcome <;> rfl
    rw [own]
    cases divided : divide tokens with
    | nothing => exact Nat.succ_le_succ (Nat.zero_le _)
    | operatorless first => exact Nat.succ_le_succ (Nat.zero_le _)
    | single token =>
      rw [evaluateParts, countP_operand _ _ fun _ => rfl]
      exact Nat.succ_le_succ (Nat.zero_le _)
    | enclosed interior =>
      rw [divided] at parts fits
      have inside := parts interior List.mem_cons_self (start + 1)
      have length := length_of_enclosed? fits
      rw [evaluateParts]
      omega
    | leading first rest =>
      rw [divided] at parts fits
      obtain ⟨rfl, -⟩ := fits
      have after := parts rest List.mem_cons_self (start + 1)
      rw [List.length_cons]
      simp only [evaluateParts]
      cases first.kind.unaryOperator? with
      | none => exact Nat.succ_le_succ (Nat.zero_le _)
      | some operator =>
        rw [Traced.events_bind, List.countP_append]
        cases (environment.reduce (start + 1) rest).outcome with
        | error error =>
          rw [List.countP_nil]
          omega
        | ok argument =>
          rw [countP_isEntry_applyUnary]
          omega
    | around left token right =>
      rw [divided] at parts fits
      obtain ⟨rfl, -⟩ := fits
      have before := parts left List.mem_cons_self start
      have after := parts right (by simp [Division.parts]) (start + left.length + 1)
      rw [List.length_append, List.length_cons, evaluateParts, Traced.events_bind,
        List.countP_append]
      cases valueLeft : (environment.reduce start left).outcome with
      | error error =>
        rw [List.countP_nil]
        omega
      | ok leftWord =>
        have reduces := reduces_of_value valueLeft
        have entries := reduces.countP_isEntry
        have records := reduces.length_recordedRanges
        simp only
        rw [Traced.events_bind, List.countP_append]
        cases (environment.reduce (start + left.length + 1) right).outcome with
        | error error =>
          rw [List.countP_nil]
          omega
        | ok rightWord =>
          cases token.kind.binaryOperator? with
          | none =>
            simp only [Traced.events_fail, List.countP_nil]
            omega
          | some operator =>
            simp only [Traced.events_ofExcept, List.countP_nil]
            omega

theorem run_eq_reduce_of_value (success : (environment.run tokens).outcome = .ok word) :
    environment.run tokens = environment.reduce 0 tokens := by
  obtain ⟨balanced, value⟩ := outcome_run_eq_ok_iff.mp success
  cases tokens with
  | nil => rw [value_eq] at value; cases value
  | cons first rest =>
    simp only [run, List.isEmpty_cons, Bool.false_eq_true, if_false,
      (unpaired?_eq_none_iff _).mpr balanced]

theorem countP_isEntry_run_le (environment : Environment) (tokens : List Token) :
    (environment.run tokens).events.countP EvaluationEvent.isEntry ≤ tokens.length + 1 := by
  rw [run]
  split
  · exact Nat.zero_le _
  split
  · exact Nat.zero_le _
  · exact environment.countP_isEntry_reduce_le 0 tokens

end Environment

/-- A run that gives a word records the value of one range for each token, except that a pair of
parentheses counts once. No range is recorded twice, the records are in post-order, and the last one
is that of the whole sequence. Memory is read once for each dereference. Every run, also one that
fails, enters at most one range more than there are tokens. -/
theorem run_consumes_tokens_once (environment : Environment) (tokens : List Token) :
    let events := (environment.run tokens).events
    (∀ word, (environment.run tokens).outcome = .ok word →
      isBalanced tokens = true ∧
      (recordedRanges events).length + tokens.countP (·.kind == .openParen) = tokens.length ∧
      (recordedRanges events).Nodup ∧ InPostOrder (recordedRanges events) ∧
      events.getLast? = some (.reduced 0 tokens.length word) ∧
      events.countP EvaluationEvent.isRead = tokens.countP (·.kind == .dereference) ∧
      (readers events).Perm (tokens.findIdxs (·.kind == .dereference))) ∧
    events.countP EvaluationEvent.isEntry ≤ tokens.length + 1 := by
  intro events
  refine ⟨fun word success => ?_, environment.countP_isEntry_run_le tokens⟩
  obtain ⟨balanced, -⟩ := Environment.outcome_run_eq_ok_iff.mp success
  have same := Environment.run_eq_reduce_of_value success
  have reduces : environment.Reduces 0 tokens events word := by
    rw [same] at success
    simp only [events, same]
    exact Environment.reduces_of_value success
  obtain ⟨earlier, ends⟩ := reduces.ends
  refine ⟨balanced, reduces.length_recordedRanges, ?nodup, reduces.inPostOrder, ?last,
    reduces.countP_isRead, reduces.readers_perm⟩
  case nodup =>
    exact reduces.inPostOrder.nodup fun range member => (reduces.of_mem_recordedRanges member).1
  case last => rw [ends, List.getLast?_concat]

/-- `-(*$eax+1)` has seven tokens with one pair of parentheses, and six ranges of it are recorded.
The read is for the token at index 2. `1+` fails after three entries for its two tokens. -/
theorem run_consumes_tokens_once_of_negated_sum :
    let tokens : List Token :=
      [⟨.negate, 6, "-", 0⟩, ⟨.openParen, 7, "(", 1⟩, ⟨.dereference, 6, "*", 2⟩,
        ⟨.register, 0, "eax", 3⟩, ⟨.plus, 4, "+", 7⟩, ⟨.decimal, 0, "1", 8⟩,
        ⟨.closeParen, 7, ")", 9⟩]
    let unfinished : List Token := [⟨.decimal, 0, "1", 0⟩, ⟨.plus, 4, "+", 1⟩]
    let environment : Environment :=
      ⟨fun _ => some 0x1000, fun _ _ _ => .ok 7, fun _ => none, false⟩
    let events := (environment.run tokens).events
    (environment.run tokens).outcome = .ok 0xFFFFFFF8 ∧
      recordedRanges events = [⟨3, 1⟩, ⟨2, 2⟩, ⟨5, 1⟩, ⟨2, 4⟩, ⟨1, 6⟩, ⟨0, 7⟩] ∧
      InPostOrder (recordedRanges events) ∧ readers events = [2] ∧
      (readers events).Perm (tokens.findIdxs (·.kind == .dereference)) ∧
      (environment.run unfinished).outcome = .error .missingOperand ∧
      (environment.run unfinished).events.countP EvaluationEvent.isEntry = 3 ∧
      (environment.run unfinished).events.countP EvaluationEvent.isEntry ≤
        unfinished.length + 1 := by
  intro tokens unfinished environment events
  have value : (environment.run tokens).outcome = .ok 0xFFFFFFF8 := by decide +kernel
  obtain ⟨onSuccess, -⟩ := run_consumes_tokens_once environment tokens
  obtain ⟨-, -, -, ordered, -, -, readersOnce⟩ := onSuccess _ value
  obtain ⟨-, entries⟩ := run_consumes_tokens_once environment unfinished
  exact ⟨value, by decide +kernel, ordered, by decide +kernel, readersOnce, by decide +kernel,
    by decide +kernel, entries⟩

end GuestProbe
