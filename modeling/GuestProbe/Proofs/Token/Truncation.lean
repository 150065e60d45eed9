import GuestProbe.Proofs.Guarded.Scanning
import GuestProbe.Proofs.Text.Lines

/-! # The kept part of a token's text

A token keeps the longest start of its text that ends at a character boundary and has at most
`Token.textLimit` bytes. The boundaries are those of the text's UTF-8 form: the positions of the
bytes that start a character, and its end (`IsCharacterBoundary`). `splitBytes?` cuts a text at
exactly these positions (`isSome_splitBytes?_iff`), so lowering a length until the text can be cut
there finds the greatest boundary.

A character has at most four bytes, so at most three bytes stay unused before a character that does
not fit (`lt_byteLength_takeBytes`).
-/

namespace GuestProbe

namespace Text

/-! ## Boundaries -/

/-- A position in the UTF-8 form of a text at which a character starts or the text ends. -/
def IsCharacterBoundary (bytes : List UInt8) (position : Nat) : Prop :=
  position = bytes.length ∨ ∃ byte ∈ bytes[position]?, byte.IsUTF8FirstByte

/-- Behind some bytes the boundaries are those of what follows. -/
theorem isCharacterBoundary_append_iff {front back : List UInt8} {position : Nat}
    (behind : front.length ≤ position) :
    IsCharacterBoundary (front ++ back) position ↔
      IsCharacterBoundary back (position - front.length) := by
  have ends : position = (front ++ back).length ↔ position - front.length = back.length := by
    rw [List.length_append]
    omega
  rw [IsCharacterBoundary, IsCharacterBoundary, List.getElem?_append_right behind, ends]

/-- Among the bytes of a character only the first one is at a boundary. -/
theorem isCharacterBoundary_character_iff {first : Char} {back : List UInt8} {position : Nat}
    (inside : position < first.utf8Size) :
    IsCharacterBoundary (String.utf8EncodeChar first ++ back) position ↔ position = 0 := by
  rw [← String.length_utf8EncodeChar] at inside
  have before : position ≠ (String.utf8EncodeChar first ++ back).length := by
    rw [List.length_append]
    omega
  simp only [IsCharacterBoundary, before, false_or, List.getElem?_append_left inside,
    List.getElem?_eq_getElem inside, Option.mem_def, Option.some.injEq, exists_eq_left',
    UInt8.isUTF8FirstByte_getElem_utf8EncodeChar]

/-- A text can be cut at the character boundaries of its UTF-8 form. -/
theorem isSome_splitBytes?_iff (position : Nat) (text : List Char) :
    (splitBytes? position text).isSome = true ↔ IsCharacterBoundary (encode text) position := by
  induction text generalizing position with
  | nil => cases position <;> simp [splitBytes?, IsCharacterBoundary]
  | cons first rest ih =>
    rw [encode_cons]
    cases position with
    | zero => simp [splitBytes?, isCharacterBoundary_character_iff first.utf8Size_pos]
    | succ position =>
      rw [splitBytes?]
      split
      · next fits =>
        rw [← String.length_utf8EncodeChar] at fits
        rw [Option.isSome_map, ih, isCharacterBoundary_append_iff fits,
          String.length_utf8EncodeChar]
      · next short =>
        simp [isCharacterBoundary_character_iff (Nat.lt_of_not_le short)]

/-! ## The longest start -/

/-- The text is the start of another one up to the greatest character boundary within a number of
bytes. -/
structure IsLongestStart (limit : Nat) (text kept : List Char) : Prop where
  leads : kept <+: text
  bytes : encode kept = (encode text).take (byteLength kept)
  within : byteLength kept ≤ limit
  boundary : IsCharacterBoundary (encode text) (byteLength kept)
  greatest : ∀ position ≤ limit, IsCharacterBoundary (encode text) position →
    position ≤ byteLength kept

theorem byteLength_le_of_isPrefix {front text : List Char} (leads : front <+: text) :
    byteLength front ≤ byteLength text := by
  obtain ⟨back, rfl⟩ := leads
  rw [byteLength_append]
  exact Nat.le_add_right _ _

theorem isLongestStart_takeBytes (limit : Nat) (text : List Char) :
    IsLongestStart limit text (takeBytes limit text) := by
  obtain ⟨back, split⟩ := takeBytes_isPrefix limit text
  refine ⟨⟨back, split⟩, ?_, byteLength_takeBytes_le limit text, ?_, ?_⟩
  · have bytes := congrArg encode split
    rw [encode_append] at bytes
    rw [← bytes, List.take_left' (length_encode _)]
  · have cut := splitBytes?_byteLength (takeBytes limit text) back
    rw [split] at cut
    rw [← isSome_splitBytes?_iff, cut, Option.isSome_some]
  · intro position within boundary
    rw [← isSome_splitBytes?_iff, Option.isSome_iff_exists] at boundary
    obtain ⟨⟨front, rest⟩, cut⟩ := boundary
    obtain ⟨rfl, rfl⟩ := (splitBytes?_eq_some_iff ..).mp cut
    exact byteLength_le_of_isPrefix (isPrefix_takeBytes (List.prefix_append front rest) within)

/-- The character behind what is taken does not fit, and takes at most four bytes. -/
theorem lt_byteLength_takeBytes {limit : Nat} {text : List Char}
    (longer : limit < byteLength text) : limit < byteLength (takeBytes limit text) + 4 := by
  obtain ⟨back, split⟩ := takeBytes_isPrefix limit text
  have within := byteLength_takeBytes_le limit text
  cases back with
  | nil =>
    rw [List.append_nil] at split
    rw [split] at within
    omega
  | cons next back =>
    have size := next.utf8Size_le_four
    refine Nat.lt_of_not_le fun short => ?_
    have leads : takeBytes limit text ++ [next] <+: text := ⟨back, by simpa using split⟩
    have fits : byteLength (takeBytes limit text ++ [next]) ≤ limit := by
      rw [byteLength_append, byteLength_cons, byteLength_nil]
      omega
    have taken := (isPrefix_takeBytes leads fits).length_le
    rw [List.length_append, List.length_singleton] at taken
    omega

end Text

open Text

/-- A token keeps the longest start of its text that ends at a character boundary and has at most 31
bytes. The search for the boundary finds it, leaves out three bytes at most before a character that
does not fit, and changes nothing when what was kept is made a token again. -/
theorem Token.ofText_keeps_longest_start (kind : TokenKind) (precedence : Nat) (text : List Char)
    (offset : Nat) :
    ∃ kept, Token.ofText kind precedence text offset =
        ⟨kind, precedence, String.ofList kept, offset⟩ ∧
      (∀ position, (splitBytes? position text).isSome = true ↔
        IsCharacterBoundary (encode text) position) ∧
      Guarded.truncated text = pure kept ∧ IsLongestStart 31 text kept ∧
      (byteLength text ≤ 31 → kept = text) ∧ (31 < byteLength text → 28 ≤ byteLength kept) ∧
      Token.ofText kind precedence kept offset = Token.ofText kind precedence text offset := by
  have again : takeBytes textLimit (takeBytes textLimit text) = takeBytes textLimit text :=
    takeBytes_of_le _ _ (byteLength_takeBytes_le textLimit text)
  refine ⟨takeBytes textLimit text, rfl, fun position => isSome_splitBytes?_iff position text,
    Guarded.truncated_eq text, isLongestStart_takeBytes textLimit text,
    takeBytes_of_le textLimit text, ?_, ?_⟩
  · intro longer
    have bound : 31 < byteLength (takeBytes textLimit text) + 4 := lt_byteLength_takeBytes longer
    omega
  · rw [ofText, ofText, again]

end GuestProbe
