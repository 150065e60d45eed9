import GuestProbe.Proofs.Expression.Pieces
import GuestProbe.Proofs.Expression.Relocation
import GuestProbe.Proofs.Token.Lookahead

/-! # Blanks between tokens

`spaced` inserts spaces and tabs into an expression, any number at each byte offset. If none of them
gets into a piece that becomes a token, the tokens are the same, each further on by what is inserted
up to it (`shifted`). So the outcome of the expression is the same but for the offset of an error
(`evaluate_spaced`).

Separating two pieces could let another rule win at the first one. It does not, because a piece
behind which the scan goes on is read in the same way before a blank (`reads_of_findRule?`).
-/

namespace GuestProbe

open Text

/-! ## Inserting blanks -/

section Insertion

variable (blanks : Nat → List Char)

/-- The text that starts at an offset, with the given blanks at each offset in it and at its end. -/
def spacedFrom (offset : Nat) : List Char → List Char
  | [] => blanks offset
  | first :: rest => blanks offset ++ first :: spacedFrom (offset + first.utf8Size) rest

/-- The expression with the given blanks at each byte offset. -/
def spaced (expression : String) : String :=
  String.ofList (spacedFrom blanks 0 expression.toList)

/-- The number of bytes that are inserted at the offsets below a given one. -/
def inserted : Nat → Nat
  | 0 => 0
  | offset + 1 => inserted offset + byteLength (blanks offset)

/-- Where the character at an offset stands once blanks are inserted at that offset and before. -/
def shifted (offset : Nat) : Nat :=
  offset + inserted blanks (offset + 1)

/-- No blanks are inserted into the piece. -/
def Piece.Unbroken (piece : Piece) : Prop :=
  ∀ position < piece.offset + byteLength piece.found.lexeme, piece.offset < position →
    blanks position = []

instance (piece : Piece) : Decidable (piece.Unbroken blanks) :=
  inferInstanceAs (Decidable (∀ _ < _, _ → _))

end Insertion

section Pieces

variable {blanks : Nat → List Char}

theorem head?_spacedFrom (blank : ∀ offset, ∀ character ∈ blanks offset, isBlank character = true)
    (offset : Nat) (text : List Char) :
    (spacedFrom blanks offset text).head? = text.head? ∨
      ∀ character ∈ (spacedFrom blanks offset text).head?, isBlank character = true := by
  cases none : blanks offset with
  | nil =>
    left
    cases text with
    | nil => rw [spacedFrom, none]
    | cons first rest => rw [spacedFrom, none]; rfl
  | cons first more =>
    right
    have starts : (spacedFrom blanks offset text).head? = some first := by
      cases text <;> rw [spacedFrom, none] <;> rfl
    rw [starts]
    rintro character ⟨⟩
    exact blank offset first (by rw [none]; exact List.mem_cons_self)

/-- Blanks that are inserted into blanks make a longer run of blanks. -/
theorem exists_of_spacedFrom_blank
    (blank : ∀ offset, ∀ character ∈ blanks offset, isBlank character = true) {gap : List Char}
    (gapBlank : ∀ character ∈ gap, isBlank character = true) (offset : Nat) (rest : List Char) :
    ∃ longer, (∀ character ∈ longer, isBlank character = true) ∧
      spacedFrom blanks offset (gap ++ rest) =
        longer ++ spacedFrom blanks (offset + byteLength gap) rest ∧
      offset + inserted blanks offset + byteLength longer =
        offset + byteLength gap + inserted blanks (offset + byteLength gap) := by
  induction gap generalizing offset with
  | nil => exact ⟨[], gapBlank, rfl, rfl⟩
  | cons first gap ih =>
    obtain ⟨firstBlank, laterBlank⟩ := List.forall_mem_cons.mp gapBlank
    have single : first.utf8Size = 1 := by
      rcases eq_of_isBlank firstBlank with rfl | rfl <;> rfl
    obtain ⟨longer, longerBlank, same, length⟩ := ih laterBlank (offset + 1)
    have reached : offset + 1 + byteLength gap = offset + byteLength (first :: gap) := by
      rw [byteLength_cons, single, Nat.add_assoc]
    rw [reached] at same length
    refine ⟨blanks offset ++ first :: longer, ?_, ?_, ?_⟩
    · exact List.forall_mem_append.mpr
        ⟨blank offset, List.forall_mem_cons.mpr ⟨firstBlank, longerBlank⟩⟩
    · rw [List.cons_append, spacedFrom, single, same, List.append_assoc, List.cons_append]
    · rw [inserted] at length
      rw [byteLength_append, byteLength_cons, single]
      omega

/-- A piece into which nothing is inserted stands behind the blanks at its offset. -/
theorem spacedFrom_of_unbroken {lexeme : List Char} (more : lexeme ≠ [])
    (single : ∀ character ∈ lexeme, character.utf8Size = 1) {offset : Nat}
    (unbroken : ∀ position < offset + byteLength lexeme, offset < position → blanks position = [])
    (rest : List Char) :
    spacedFrom blanks offset (lexeme ++ rest) =
        blanks offset ++ (lexeme ++ spacedFrom blanks (offset + byteLength lexeme) rest) ∧
      inserted blanks (offset + byteLength lexeme) = inserted blanks (offset + 1) := by
  induction lexeme generalizing offset with
  | nil => exact absurd rfl more
  | cons first lexeme ih =>
    obtain ⟨firstSingle, laterSingle⟩ := List.forall_mem_cons.mp single
    rw [byteLength_cons, firstSingle, ← Nat.add_assoc] at unbroken ⊢
    by_cases last : lexeme = []
    · subst last
      rw [List.singleton_append, spacedFrom, firstSingle]
      exact ⟨rfl, rfl⟩
    · have positive := mt (byteLength_eq_zero_iff lexeme).mp last
      have nothing : blanks (offset + 1) = [] := unbroken _ (by omega) (by omega)
      obtain ⟨same, length⟩ := ih last laterSingle fun position before after =>
        unbroken position before (by omega)
      rw [nothing, List.nil_append] at same
      rw [inserted, nothing, byteLength_nil, Nat.add_zero] at length
      rw [List.cons_append, spacedFrom, firstSingle, same]
      exact ⟨rfl, length⟩

/-! ## Cutting the longer text -/

theorem unread_of_reads {text lexeme rest : List Char} {kind : TokenKind}
    (reads : Reads text kind lexeme rest) : unread text = unread rest := by
  obtain ⟨index, rule, success, -⟩ := reads
  exact unread_of_some success

theorem keptFrom_of_reads_blank {text lexeme rest : List Char}
    (reads : Reads text .whitespace lexeme rest) (offset : Nat) :
    keptFrom offset text = keptFrom (offset + byteLength lexeme) rest := by
  obtain ⟨index, rule, success, isWhitespace⟩ := reads
  exact keptFrom_of_blank success isWhitespace

theorem tokens_of_reads {text lexeme rest : List Char} {kind : TokenKind}
    (reads : Reads text kind lexeme rest) (notBlank : kind ≠ .whitespace) (offset : Nat) :
    (keptFrom offset text).map Piece.token =
      ⟨kind, kind.precedence, String.ofList ((kind.tokenText lexeme).take Token.textLimit),
          offset⟩ ::
        (keptFrom (offset + byteLength lexeme) rest).map Piece.token := by
  obtain ⟨index, rule, success, rfl⟩ := reads
  rw [keptFrom_of_token success notBlank, List.map_cons]
  rfl

/-- Blanks in front of a text that starts with none are passed over. -/
theorem cut_of_gap {gap rest : List Char} (gapBlank : ∀ character ∈ gap, isBlank character = true)
    (ends : rest.head?.any isBlank = false) (offset : Nat) :
    unread (gap ++ rest) = unread rest ∧
      keptFrom offset (gap ++ rest) = keptFrom (offset + byteLength gap) rest := by
  by_cases none : gap = []
  · subst none
    exact ⟨rfl, rfl⟩
  · have reads := reads_blank none gapBlank ends
    exact ⟨unread_of_reads reads, keptFrom_of_reads_blank reads offset⟩

/-- Blanks in front of any text are passed over, since those that it starts with are part of the
same run. -/
theorem cut_of_blanks {gap : List Char} (gapBlank : ∀ character ∈ gap, isBlank character = true)
    (offset : Nat) (rest : List Char) :
    unread (gap ++ rest) = unread rest ∧
      keptFrom offset (gap ++ rest) = keptFrom (offset + byteLength gap) rest := by
  obtain ⟨more, later, split, moreBlank, ends⟩ : ∃ more later, rest = more ++ later ∧
      (∀ character ∈ more, isBlank character = true) ∧ later.head?.any isBlank = false := by
    exact ⟨rest.takeWhile isBlank, rest.dropWhile isBlank, List.takeWhile_append_dropWhile.symm,
      List.all_eq_true.mp List.all_takeWhile, refused_dropWhile isBlank rest⟩
  have all := cut_of_gap (List.forall_mem_append.mpr ⟨gapBlank, moreBlank⟩) ends offset
  have own := cut_of_gap moreBlank ends (offset + byteLength gap)
  rw [split, ← List.append_assoc, all.1, all.2, own.1, own.2, byteLength_append, Nat.add_assoc]
  exact ⟨rfl, rfl⟩

theorem readable_of_unread {text : List Char} (whole : unread text = []) : Readable text := by
  cases success : findRule? text with
  | none => exact .inl ((unread_of_none success).symm.trans whole)
  | some found => exact .inr (by rw [success]; rfl)

section Steps

variable {offset : Nat} {text : List Char} {found : RuleMatch}

/-- A piece of blanks and what is inserted into it are passed over as one run. -/
theorem cut_of_spaced_blank
    (blank : ∀ offset, ∀ character ∈ blanks offset, isBlank character = true) (offset : Nat)
    (success : findRule? text = some found) (isWhitespace : found.rule.kind = .whitespace) :
    let reached := offset + byteLength found.lexeme
    unread (spacedFrom blanks offset text) = unread (spacedFrom blanks reached found.rest) ∧
      keptFrom (offset + inserted blanks offset) (spacedFrom blanks offset text) =
        keptFrom (reached + inserted blanks reached) (spacedFrom blanks reached found.rest) := by
  intro reached
  obtain ⟨longer, longerBlank, same, length⟩ := exists_of_spacedFrom_blank blank
    (isBlank_of_mem_lexeme success isWhitespace) offset found.rest
  have cut := cut_of_blanks longerBlank (offset + inserted blanks offset)
    (spacedFrom blanks reached found.rest)
  rwa [← same, ← findRule?_append success, length] at cut

/-- The blanks in front of any other piece are passed over, and those behind it only end it. -/
theorem cut_of_spaced_token
    (blank : ∀ offset, ∀ character ∈ blanks offset, isBlank character = true)
    (success : findRule? text = some found) (isToken : found.rule.kind ≠ .whitespace)
    (readable : Readable found.rest) (unbroken : Piece.Unbroken blanks ⟨offset, found⟩) :
    let reached := offset + byteLength found.lexeme
    unread (spacedFrom blanks offset text) = unread (spacedFrom blanks reached found.rest) ∧
      (keptFrom (offset + inserted blanks offset) (spacedFrom blanks offset text)).map Piece.token =
        (Piece.token ⟨offset, found⟩).relocate (shifted blanks) ::
          (keptFrom (reached + inserted blanks reached)
            (spacedFrom blanks reached found.rest)).map Piece.token := by
  intro reached
  obtain ⟨same, length⟩ := spacedFrom_of_unbroken (findRule?_ne_nil success)
    (utf8Size_of_mem_lexeme success) unbroken found.rest
  rw [← findRule?_append success] at same
  obtain ⟨passed, kept⟩ := cut_of_blanks (blank offset) (offset + inserted blanks offset)
    (found.lexeme ++ spacedFrom blanks reached found.rest)
  have reads := reads_of_findRule? success isToken readable
    (head?_spacedFrom blank reached found.rest)
  have starts : offset + inserted blanks offset + byteLength (blanks offset) =
      shifted blanks offset := by
    rw [shifted, inserted, Nat.add_assoc]
  have ends : shifted blanks offset + byteLength found.lexeme =
      reached + inserted blanks reached := by
    rw [length, shifted, Nat.add_right_comm]
  rw [same, passed, kept, starts, unread_of_reads reads, tokens_of_reads reads isToken, ends]
  exact ⟨rfl, rfl⟩

end Steps

/-- The longer text is read to its end and has the same tokens at the offsets that theirs go to. -/
theorem cut_of_spacedFrom
    (blank : ∀ offset, ∀ character ∈ blanks offset, isBlank character = true) {offset : Nat}
    {text : List Char} (whole : unread text = [])
    (unbroken : ∀ piece ∈ keptFrom offset text, piece.Unbroken blanks) :
    unread (spacedFrom blanks offset text) = [] ∧
      (keptFrom (offset + inserted blanks offset) (spacedFrom blanks offset text)).map Piece.token =
        ((keptFrom offset text).map Piece.token).map (Token.relocate (shifted blanks)) := by
  induction offset, text using piecesFrom.induct with
  | case1 offset text none =>
    rw [unread_of_none none] at whole
    subst whole
    have cut := cut_of_blanks (blank offset) (offset + inserted blanks offset) []
    rw [List.append_nil] at cut
    rw [spacedFrom, cut.1, cut.2, keptFrom_of_none none, keptFrom_of_none none, unread_of_none none]
    exact ⟨rfl, rfl⟩
  | case2 offset text found success ih =>
    rw [unread_of_some success] at whole
    by_cases isWhitespace : found.rule.kind = .whitespace
    · obtain ⟨passed, kept⟩ := cut_of_spaced_blank blank offset success isWhitespace
      rw [keptFrom_of_blank success isWhitespace] at unbroken ⊢
      rw [passed, kept]
      exact ih whole unbroken
    · rw [keptFrom_of_token success isWhitespace] at unbroken ⊢
      obtain ⟨here, later⟩ := List.forall_mem_cons.mp unbroken
      obtain ⟨passed, kept⟩ :=
        cut_of_spaced_token blank success isWhitespace (readable_of_unread whole) here
      obtain ⟨passedLater, keptLater⟩ := ih whole later
      rw [passed, kept, keptLater]
      exact ⟨passedLater, rfl⟩

end Pieces

/-! ## The longer expression -/

theorem tokenize_spaced {expression : String} {stream : TokenStream} {blanks : Nat → List Char}
    (success : tokenize expression = .ok stream)
    (blank : ∀ offset, ∀ character ∈ blanks offset, isBlank character = true)
    (unbroken : ∀ piece ∈ keptFrom 0 expression.toList, piece.Unbroken blanks) :
    ∃ longer, tokenize (spaced blanks expression) = .ok longer ∧
      longer.tokens = stream.tokens.map (Token.relocate (shifted blanks)) := by
  obtain ⟨whole, -, tokens⟩ := (tokenize_eq_ok_iff expression stream).mp success
  obtain ⟨wholeLonger, tokensLonger⟩ := cut_of_spacedFrom blank whole unbroken
  rw [← tokens] at tokensLonger
  refine ⟨⟨stream.tokens.map (Token.relocate (shifted blanks)), ?_⟩, ?_, rfl⟩
  · rw [List.length_map]
    exact stream.length_le
  · have count := congrArg List.length tokensLonger
    rw [List.length_map, List.length_map] at count
    rw [tokenize_eq_ok_iff, spaced, String.toList_ofList]
    exact ⟨wholeLonger, Nat.le_trans (Nat.le_of_eq count) stream.length_le, tokensLonger.symm⟩

/-- Spaces and tabs at the ends of an expression and between its tokens do not change the tokens but
for their offsets, which grow by the number of blanks inserted up to them. The expression has the
same value, or the same error with its offset moved in the same way. -/
theorem evaluate_spaced {expression : String} {stream : TokenStream} {blanks : Nat → List Char}
    (success : tokenize expression = .ok stream)
    (blank : ∀ offset, ∀ character ∈ blanks offset, character = ' ' ∨ character = '\t')
    (unbroken : ∀ piece ∈ keptFrom 0 expression.toList, piece.Unbroken blanks) :
    (∃ longer, tokenize (spaced blanks expression) = .ok longer ∧
      longer.tokens = stream.tokens.map (Token.relocate (shifted blanks))) ∧
    ∀ environment : Environment, environment.evaluate (spaced blanks expression) =
      (environment.evaluate expression).mapError (ExpressionError.relocate (shifted blanks)) := by
  have areBlank : ∀ offset, ∀ character ∈ blanks offset, isBlank character = true := by
    intro offset character member
    rcases blank offset character member with rfl | rfl <;> rfl
  obtain ⟨longer, successLonger, same⟩ := tokenize_spaced success areBlank unbroken
  refine ⟨⟨longer, successLonger, same⟩, fun environment => ?_⟩
  exact environment.evaluate_relocate (shifted blanks) success successLonger same

/-- With blanks around the `12` of `12/ 0` and at the end, the slash stands at offset 5. -/
theorem evaluate_spaced_division :
    let blanks : Nat → List Char := fun offset =>
      if offset = 2 then [' ', '\t'] else if offset = 0 ∨ offset = 5 then [' '] else []
    let environment : Environment :=
      ⟨fun _ => none, fun address _ _ => .error (.fault address), fun _ => none, false⟩
    (∃ stream, tokenize "12/ 0" = .ok stream) ∧
      (∀ offset, ∀ character ∈ blanks offset, character = ' ' ∨ character = '\t') ∧
      (∀ piece ∈ keptFrom 0 "12/ 0".toList, piece.Unbroken blanks) ∧
      spaced blanks "12/ 0" = " 12 \t/ 0 " ∧
      environment.evaluate "12/ 0" = .error (.divisionByZero 2) ∧
      environment.evaluate " 12 \t/ 0 " = .error (.divisionByZero 5) := by
  intro blanks environment
  obtain ⟨stream, success⟩ : ∃ stream, tokenize "12/ 0" = .ok stream :=
    ⟨⟨(keptFrom 0 "12/ 0".toList).map Piece.token, by decide +kernel⟩,
      (tokenize_eq_ok_iff ..).mpr ⟨by decide +kernel, by decide +kernel, rfl⟩⟩
  have blank : ∀ offset, ∀ character ∈ blanks offset, character = ' ' ∨ character = '\t' := by
    intro offset
    simp only [blanks]
    split_ifs <;> simp
  have unbroken : ∀ piece ∈ keptFrom 0 "12/ 0".toList, piece.Unbroken blanks := by decide +kernel
  have text : spaced blanks "12/ 0" = " 12 \t/ 0 " := by decide +kernel
  have failed : environment.evaluate "12/ 0" = .error (.divisionByZero 2) := by decide +kernel
  have moved := (evaluate_spaced success blank unbroken).2 environment
  rw [text, failed] at moved
  exact ⟨⟨stream, success⟩, blank, unbroken, text, failed, moved⟩

end GuestProbe
