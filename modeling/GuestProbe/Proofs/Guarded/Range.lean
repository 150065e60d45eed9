import GuestProbe.Expression.DominantOperator
import GuestProbe.Proofs.Guarded.Operations

/-! # Ranges of tokens

A range of a stream is given by the indices of its first and its last token, and a sequence that
occurs there (`OccursAt`) is what the range stands for. The decisions of an evaluation about a range
read tokens by their indices and take slices between indices, which is guarded here; for a range
that a sequence occurs in they stay within their domains and decide what `enclosed?` and
`dominantOperator?` decide about the sequence.
-/

namespace GuestProbe

/-! ## Ranges -/

/-- A sequence occurs in another one from an index on. -/
def OccursAt (part tokens : List Token) (start : Nat) : Prop :=
  ∃ before after, tokens = before ++ (part ++ after) ∧ before.length = start

namespace OccursAt

variable {part tokens : List Token} {start : Nat}

theorem inner (left right : List Token) (occurs : OccursAt (left ++ (part ++ right)) tokens start) :
    OccursAt part tokens (start + left.length) := by
  obtain ⟨before, after, rfl, rfl⟩ := occurs
  exact ⟨before ++ left, right ++ after, by simp only [List.append_assoc], List.length_append⟩

theorem tail {head : Token} {rest : List Token} (occurs : OccursAt (head :: rest) tokens start) :
    OccursAt rest tokens (start + 1) :=
  inner [head] [] (by rwa [List.append_nil])

/-- Both sides of a token occur where the whole does. -/
theorem around {left right : List Token} {token : Token}
    (occurs : OccursAt (left ++ token :: right) tokens start) :
    OccursAt left tokens start ∧ OccursAt right tokens (start + left.length + 1) := by
  refine ⟨inner [] (token :: right) occurs, ?_⟩
  rw [← List.append_nil right, List.append_cons] at occurs
  simpa [Nat.add_assoc] using occurs.inner (left ++ [token]) []

/-- A sequence that occurs in another one has the tokens of its range. -/
theorem extract (occurs : OccursAt part tokens start) :
    tokens.extract start (start + part.length) = part := by
  obtain ⟨before, after, rfl, rfl⟩ := occurs
  rw [List.extract_eq_take_drop, List.drop_left, Nat.add_sub_cancel_left, List.take_left]

theorem length_le (occurs : OccursAt part tokens start) :
    start + part.length ≤ tokens.length := by
  obtain ⟨before, after, rfl, rfl⟩ := occurs
  simp only [List.length_append]
  omega

theorem element (occurs : OccursAt part tokens start) {index : Nat} {token : Token}
    (found : part[index]? = some token) :
    Guarded.element tokens (start + index) = pure token := by
  obtain ⟨before, after, rfl, rfl⟩ := occurs
  have bound := (List.getElem?_eq_some_iff.mp found).1
  refine Guarded.element_of_getElem? ?_
  rw [List.getElem?_append_right (Nat.le_add_right ..), Nat.add_sub_cancel_left,
    List.getElem?_append_left bound, found]

theorem element_head {head : Token} {rest : List Token}
    (occurs : OccursAt (head :: rest) tokens start) :
    Guarded.element tokens start = pure head :=
  occurs.element (List.getElem?_cons_zero ..)

theorem slice (occurs : OccursAt part tokens start) :
    Guarded.slice tokens start (start + part.length) = pure part := by
  obtain ⟨before, after, rfl, rfl⟩ := occurs
  exact Guarded.slice_append before part after

/-- The tokens of the part before one of its indices. -/
theorem slice_take (occurs : OccursAt part tokens start) {index : Nat}
    (bound : index ≤ part.length) :
    Guarded.slice tokens start (start + index) = pure (part.take index) := by
  have split : part = [] ++ (part.take index ++ part.drop index) := (List.take_append_drop ..).symm
  rw [split] at occurs
  have taken := (occurs.inner [] (part.drop index)).slice
  rwa [List.length_take_of_le bound] at taken

end OccursAt

namespace Guarded

/-! ## Decisions about a range -/

/-- The range of two indices is in parentheses that are partners. -/
def isEnclosed (tokens : List Token) (first last : Nat) : Guarded Bool := do
  let opening ← element tokens first
  if opening.kind ≠ .openParen then pure false
  else
    let closing ← element tokens last
    if closing.kind ≠ .closeParen then pure false
    else
      let interior ← slice tokens (first + 1) last
      pure (isBalanced interior)

/-- Compares a token with the operator that is chosen among those before it. -/
def considerOperator (tokens : List Token) (first : Nat) (chosen : Option Nat) (index : Nat) :
    Guarded (Option Nat) := do
  let token ← element tokens index
  if token.kind.isOperator = false then pure chosen
  else
    let preceding ← slice tokens first index
    if leavesOpen preceding then pure chosen
    else
      match chosen with
      | none => pure (some index)
      | some earlier =>
          let other ← element tokens earlier
          pure (some (if other.precedence < token.precedence then earlier else index))

/-- The index of the operator to split a range at. -/
def dominantIndex? (tokens : List Token) (first last : Nat) : Guarded (Option Nat) :=
  (List.range' first (last + 1 - first)).foldlM (considerOperator tokens first) none

/-- The operator at an index applies the first token of its range to all others. -/
def isLeading (tokens : List Token) (first index : Nat) : Guarded Bool := do
  if index = first then pure true
  else
    let operator ← element tokens index
    pure operator.kind.isUnary

section Decisions

variable {part tokens : List Token} {first last : Nat}

theorem isEnclosed_eq (occurs : OccursAt part tokens first) (more : 1 < part.length)
    (ends : last + 1 = first + part.length) :
    isEnclosed tokens first last = pure (enclosed? part).isSome := by
  match part, more with
  | opening :: rest, more =>
    obtain ⟨interior, closing, rfl⟩ : ∃ interior closing, rest = interior ++ [closing] := by
      have notEmpty : rest ≠ [] := List.length_pos_iff.mp (Nat.lt_of_succ_lt_succ more)
      exact ⟨rest.dropLast, rest.getLast notEmpty, (List.dropLast_concat_getLast notEmpty).symm⟩
    have lastIndex : last = first + (interior.length + 1) := by
      simp only [List.length_cons, List.length_append, List.length_nil] at ends
      omega
    have opens : element tokens first = pure opening := occurs.element_head
    have closes : element tokens last = pure closing := by
      rw [lastIndex]
      exact occurs.element (by simp)
    have inside : slice tokens (first + 1) last = pure interior := by
      have within := (OccursAt.inner [opening] [closing] occurs).slice
      rwa [List.length_singleton, Nat.add_assoc, Nat.add_comm 1, ← lastIndex] at within
    simp only [isEnclosed, opens, closes, inside, pure_bind, enclosed?, List.getLast?_concat,
      List.dropLast_concat, Option.map_some, Option.some.injEq]
    split
    · next notOpen => rw [if_neg fun all => notOpen all.1]; rfl
    · next isOpen =>
      split
      · next notClose => rw [if_neg fun all => notClose all.2.1]; rfl
      · next isClose =>
        cases balanced : isBalanced interior <;> simp_all

/-- The indices of operators in a part, counted in the whole stream. -/
def shifted (first : Nat) (chosen : Option (Token × Nat)) : Option Nat :=
  chosen.map fun operator => first + operator.2

/-- One step of the search compares a candidate that is an exposed operator. -/
theorem considerOperator_eq (occurs : OccursAt part tokens first)
    {chosen : Option (Token × Nat)} (among : ∀ operator ∈ chosen, part[operator.2]? = operator.1)
    {candidate : Token × Nat} (found : part[candidate.2]? = some candidate.1) :
    considerOperator tokens first (shifted first chosen) (first + candidate.2) =
      pure (shifted first
        (if candidate.1.kind.isOperator && !leavesOpen (part.take candidate.2) then
          looser chosen candidate else chosen)) := by
  have bound := (List.getElem?_eq_some_iff.mp found).1
  rw [considerOperator, occurs.element found, pure_bind,
    occurs.slice_take (Nat.le_of_lt bound), pure_bind]
  cases candidate.1.kind.isOperator with
  | false => rfl
  | true =>
    cases leavesOpen (part.take candidate.2) with
    | true => rfl
    | false =>
      cases chosen with
      | none => rfl
      | some earlier =>
        have other := occurs.element (among earlier rfl)
        simp only [shifted, Option.map_some, other, pure_bind, looser]
        by_cases tighter : earlier.1.precedence < candidate.1.precedence
        · simp [tighter]
        · simp [tighter]

theorem foldlM_considerOperator (occurs : OccursAt part tokens first)
    (chosen : Option (Token × Nat)) (among : ∀ operator ∈ chosen, part[operator.2]? = operator.1)
    {candidates : List (Token × Nat)}
    (found : ∀ candidate ∈ candidates, part[candidate.2]? = some candidate.1) :
    (candidates.map fun candidate => first + candidate.2).foldlM (considerOperator tokens first)
        (shifted first chosen) =
      pure (shifted first ((candidates.filter fun (token, index) =>
        token.kind.isOperator && !leavesOpen (part.take index)).foldl looser chosen)) := by
  induction candidates generalizing chosen with
  | nil => rfl
  | cons candidate rest ih =>
    obtain ⟨foundFirst, foundRest⟩ := List.forall_mem_cons.mp found
    rw [List.map_cons, List.foldlM_cons, considerOperator_eq occurs among foundFirst, pure_bind,
      List.filter_cons]
    split
    · refine ih (looser chosen candidate) ?_ foundRest
      intro operator isChosen
      have source : chosen = some operator ∨ operator ∈ [candidate] := mem_of_foldl_looser isChosen
      rcases source with before | now
      · exact among operator before
      · rw [List.mem_singleton.mp now]
        exact foundFirst
    · exact ih chosen among foundRest

theorem dominantIndex?_eq (occurs : OccursAt part tokens first)
    (ends : last + 1 = first + part.length) :
    dominantIndex? tokens first last = pure (shifted first (dominantOperator? part)) := by
  have indices : List.range' first (last + 1 - first) =
      part.zipIdx.map fun candidate => first + candidate.2 := by
    rw [ends, Nat.add_sub_cancel_left, List.range'_eq_map_range, List.range_eq_range',
      ← List.zipIdx_map_snd 0 part, List.map_map]
    rfl
  rw [dominantIndex?, indices]
  exact foldlM_considerOperator occurs none (by simp)
    fun candidate member => List.mem_zipIdx_iff_getElem?.mp member

theorem isLeading_eq (occurs : OccursAt part tokens first) {operator : Token} {index : Nat}
    (found : part[index]? = some operator) :
    isLeading tokens first (first + index) =
      pure (decide (index = 0 ∨ operator.kind.isUnary = true)) := by
  rw [isLeading]
  split
  · next atStart => simp [Nat.add_eq_left.mp atStart]
  · next inner =>
    have notFirst : index ≠ 0 := fun atStart => inner (Nat.add_eq_left.mpr atStart)
    simp [occurs.element found, notFirst]

end Decisions

end Guarded

end GuestProbe
