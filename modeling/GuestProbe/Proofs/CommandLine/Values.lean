import GuestProbe.CommandLine.Options
import GuestProbe.Machine
import GuestProbe.Proofs.Expression.Operand
import GuestProbe.Proofs.Text.Lines
import Mathlib.Data.List.TakeDrop

/-! # Printed values

A value is printed in decimal or hexadecimal digits, with or without leading zeros, or in both
(`words_text`). Each of these numerals has few enough digits to be a literal of expressions
(`IsNumeral.evaluate`), and is a number for the options of the command line
(`IsNumeral.readNumber`). All of them read back as the value (`printed_values_read_back`).
-/

namespace GuestProbe.CommandLine

open Text

/-- The numerals of which printed values consist. -/
inductive IsNumeral (value : UInt32) : List Char → Prop where
  | decimal : IsNumeral value (Nat.toDigits 10 value.toNat)
  | hexadecimal {width : Nat} (short : width ≤ 8) :
      IsNumeral value (['0', 'x'] ++ hexDigits width value)

theorem isHexDigit_of_mem_hexDigits {width : Nat} {value : UInt32} {character : Char}
    (member : character ∈ hexDigits width value) : character.isHexDigit = true := by
  rw [hexDigits, List.leftpad] at member
  rcases List.mem_append.mp member with zero | digit
  · rw [List.eq_of_mem_replicate zero]
    rfl
  · exact isHexDigit_of_mem_toDigits digit

theorem numeral_hexDigits (width : Nat) (value : UInt32) :
    numeral 16 (hexDigits width value) = value.toNat := by
  rw [hexDigits, numeral_leftpad, numeral_toDigits (by decide) (by decide)]

theorem length_hexDigits_le {width : Nat} (short : width ≤ 8) (value : UInt32) :
    (hexDigits width value).length ≤ 8 := by
  have few : (Nat.toDigits 16 value.toNat).length ≤ 8 :=
    (Nat.length_toDigits_le_iff (by decide) (by decide)).mpr value.toNat_lt
  rw [hexDigits, List.length_leftpad]
  exact Nat.max_le.mpr ⟨short, few⟩

theorem hexDigits_ne_nil (width : Nat) (value : UInt32) : hexDigits width value ≠ [] := by
  rw [hexDigits, List.leftpad]
  exact List.append_ne_nil_of_right_ne_nil _ Nat.toDigits_ne_nil

namespace IsNumeral

variable {value : UInt32} {text : List Char}

theorem ne_nil (isNumeral : IsNumeral value text) : text ≠ [] := by
  cases isNumeral with
  | decimal => exact Nat.toDigits_ne_nil
  | hexadecimal _ => exact List.cons_ne_nil _ _

theorem isAsciiWordCharacter (isNumeral : IsNumeral value text) :
    ∀ character ∈ text, isAsciiWordCharacter character = true := by
  intro character member
  cases isNumeral with
  | decimal =>
    exact isAsciiWordCharacter_of_isDigit
      (Nat.isDigit_of_mem_toDigits (by decide) (by decide) member)
  | hexadecimal _ =>
    rcases List.mem_append.mp member with mark | digit
    · simp only [List.mem_cons, List.not_mem_nil, or_false] at mark
      rcases mark with rfl | rfl <;> rfl
    · exact isAsciiWordCharacter_of_isHexDigit (isHexDigit_of_mem_hexDigits digit)

/-- A numeral is a literal for the value, which a token holds as a whole. -/
theorem exists_literal (isNumeral : IsNumeral value text) :
    ∃ radix mark digits, Literal radix mark digits ∧ text = mark ++ digits ∧
      (mark ++ digits).length ≤ Token.textLimit ∧ numeral radix digits = value.toNat := by
  cases isNumeral with
  | decimal =>
    have few : (Nat.toDigits 10 value.toNat).length ≤ 10 :=
      (Nat.length_toDigits_le_iff (by decide) (by decide)).mpr
        (Nat.lt_trans value.toNat_lt (by decide))
    refine ⟨10, [], _, .decimal Nat.toDigits_ne_nil ?_, rfl, Nat.le_trans few (by decide),
      numeral_toDigits (by decide) (by decide) _⟩
    exact fun character => Nat.isDigit_of_mem_toDigits (by decide) (by decide)
  | @hexadecimal width short =>
    have few := length_hexDigits_le short value
    refine ⟨16, ['0', 'x'], _, .hexadecimal (.inl rfl) (hexDigits_ne_nil width value) ?_, rfl, ?_,
      numeral_hexDigits width value⟩
    · exact fun character => isHexDigit_of_mem_hexDigits
    · rw [List.length_append, List.length_cons, List.length_singleton, Token.textLimit]
      omega

theorem evaluate (isNumeral : IsNumeral value text) (environment : Environment) :
    environment.evaluate (String.ofList text) = .ok value := by
  obtain ⟨radix, mark, digits, literal, rfl, short, denotes⟩ := isNumeral.exists_literal
  have whole : digits.take (Token.textLimit - mark.length) = digits := by
    rw [List.length_append] at short
    exact List.take_of_length_le (by omega)
  have fits := (literal.evaluate_denotes environment).1
  rw [whole, denotes, UInt32.ofNat_toNat] at fits
  exact fits value.toNat_lt

theorem readNumber (isNumeral : IsNumeral value text) : readNumber text = .ok value := by
  cases isNumeral with
  | decimal =>
    have areDigits : ∀ character ∈ Nat.toDigits 10 value.toNat, character.isDigit = true :=
      fun character => Nat.isDigit_of_mem_toDigits (by decide) (by decide)
    have read : readWord 10 (Nat.toDigits 10 value.toNat) = .ok value :=
      readWord_of_numeral (by decide) Nat.toDigits_ne_nil
        (fun character member => digitValue?_of_isDigit (areDigits character member))
        (numeral_toDigits (by decide) (by decide) _)
    unfold CommandLine.readNumber
    split
    · next digits marked =>
      have noDigit := areDigits 'x' (by simp [marked])
      cases noDigit
    · exact read
  | hexadecimal _ =>
    exact readWord_of_numeral (by decide) (hexDigits_ne_nil _ value)
      (fun character member => digitValue?_of_isHexDigit (isHexDigit_of_mem_hexDigits member))
      (numeral_hexDigits _ value)

/-- A name and a numeral are parted at the equals sign between them. -/
theorem readAssignment (isNumeral : IsNumeral value text) {name : String}
    (plain : '=' ∉ name.toList) :
    readAssignment (name ++ "=" ++ String.ofList text) = .ok (name, value) := by
  have parted : (name ++ "=" ++ String.ofList text).toList.span (· != '=') =
      (name.toList, '=' :: text) := by
    have passes : ∀ character ∈ name.toList, (character != '=') = true :=
      fun character member => bne_iff_ne.mpr fun same => plain (same ▸ member)
    have joined : (name ++ "=" ++ String.ofList text).toList = name.toList ++ '=' :: text := by
      simp only [String.toList_append, String.toList_ofList, List.append_assoc]
      rfl
    rw [joined, List.span_eq_takeWhile_dropWhile, List.takeWhile_append_of_pos passes,
      List.dropWhile_append_of_pos passes, List.takeWhile_cons_of_neg (by decide),
      List.dropWhile_cons_of_neg (by decide), List.append_nil]
  rw [CommandLine.readAssignment, parted]
  simp only [isNumeral.readNumber, String.ofList_toList]

theorem words_eq (isNumeral : IsNumeral value text) : words text = [text] :=
  words_of_unbroken isNumeral.ne_nil fun character member =>
    isWhitespace_eq_false_of_isAsciiWordCharacter (isNumeral.isAsciiWordCharacter character member)

end IsNumeral

theorem isNumeral_decimalText (value : UInt32) :
    IsNumeral value (decimalText value.toNat).toList := by
  rw [decimalText, String.toList_ofList]
  exact .decimal

theorem toList_hexText (value : UInt32) :
    (hexText value).toList = ['0', 'x'] ++ hexDigits 1 value := by
  rw [hexText, String.toList_append, String.toList_ofList, String.toList_ofList]

theorem isNumeral_hexText (value : UInt32) : IsNumeral value (hexText value).toList := by
  rw [toList_hexText]
  exact .hexadecimal (by decide)

theorem toList_wideHexText (value : UInt32) :
    (wideHexText value).toList = ['0', 'x'] ++ hexDigits 8 value := by
  rw [wideHexText, String.toList_append, String.toList_ofList, String.toList_ofList]

theorem isNumeral_wideHexText (value : UInt32) : IsNumeral value (wideHexText value).toList := by
  rw [toList_wideHexText]
  exact .hexadecimal (by decide)

/-- The numerals that a format prints. -/
def ValueFormat.numerals (format : ValueFormat) (value : UInt32) : List String :=
  match format with
  | .hex => [hexText value]
  | .decimal => [decimalText value.toNat]
  | .both => [wideHexText value, decimalText value.toNat]

theorem isNumeral_of_mem_numerals {format : ValueFormat} {value : UInt32} {text : String}
    (member : text ∈ format.numerals value) : IsNumeral value text.toList := by
  cases format with
  | hex =>
    rw [List.mem_singleton.mp member]
    exact isNumeral_hexText value
  | decimal =>
    rw [List.mem_singleton.mp member]
    exact isNumeral_decimalText value
  | both =>
    rcases List.mem_cons.mp member with rfl | second
    · exact isNumeral_wideHexText value
    · rw [List.mem_singleton.mp second]
      exact isNumeral_decimalText value

/-- A printed value consists of its numerals. -/
theorem words_text (format : ValueFormat) (value : UInt32) :
    words (format.text value).toList = (format.numerals value).map String.toList := by
  cases format with
  | hex => exact (isNumeral_hexText value).words_eq
  | decimal => exact (isNumeral_decimalText value).words_eq
  | both =>
    have gap : (ValueFormat.both.text value).toList =
        (wideHexText value).toList ++ ' ' :: ([] ++ ' ' :: (decimalText value.toNat).toList) := by
      rw [ValueFormat.text, String.toList_append, String.toList_append, List.append_assoc]
      rfl
    rw [gap, words_append_cons _ _ rfl, words_append_cons _ _ rfl,
      (isNumeral_wideHexText value).words_eq, (isNumeral_decimalText value).words_eq]
    rfl

/-- What a format prints for a value is one numeral or, for both numbers, two that are parted by
spaces. On every machine each of them is an expression for the value, whether unknown symbols are
allowed or not. On a command line it is the number, alone and behind a name and an equals sign. -/
theorem printed_values_read_back (machine : Machine) (format : ValueFormat) (value : UInt32) :
    words (format.text value).toList = (format.numerals value).map String.toList ∧
    (format ≠ .both → format.numerals value = [format.text value]) ∧
    ∀ text ∈ format.numerals value,
      (∀ lenient, Machine.evaluate { machine with lenient } text = .ok value) ∧
      readNumber text.toList = .ok value ∧
      ∀ name : String, '=' ∉ name.toList →
        readAssignment (name ++ "=" ++ text) = .ok (name, value) := by
  refine ⟨words_text format value, ?_, ?_⟩
  · intro single
    cases format with
    | hex => rfl
    | decimal => rfl
    | both => exact absurd rfl single
  · intro text member
    have isNumeral := isNumeral_of_mem_numerals member
    refine ⟨fun lenient => ?_, isNumeral.readNumber, fun name plain => ?_⟩
    · have evaluated := isNumeral.evaluate (Machine.environment { machine with lenient })
      rwa [String.ofList_toList] at evaluated
    · have assigned := isNumeral.readAssignment plain
      rwa [String.ofList_toList] at assigned

/-- The largest value in both numbers, of which the second sets a symbol. -/
theorem printed_values_read_back_of_largest :
    let machine := Machine.initial (.initial 0 0) (.array #[])
    ValueFormat.both.text 0xFFFFFFFF = "0xffffffff  4294967295" ∧
      "0xffffffff" ∈ ValueFormat.both.numerals 0xFFFFFFFF ∧
      "4294967295" ∈ ValueFormat.both.numerals 0xFFFFFFFF ∧
      machine.evaluate "0xffffffff" = .ok 0xFFFFFFFF ∧
      readAssignment "end=4294967295" = .ok ("end", 0xFFFFFFFF) := by
  intro machine
  obtain ⟨-, -, reads⟩ := printed_values_read_back machine .both 0xFFFFFFFF
  have wide : "0xffffffff" ∈ ValueFormat.both.numerals 0xFFFFFFFF := by decide
  have decimal : "4294967295" ∈ ValueFormat.both.numerals 0xFFFFFFFF := by decide
  obtain ⟨evaluated, -⟩ := reads "0xffffffff" wide
  obtain ⟨-, -, assigned⟩ := reads "4294967295" decimal
  exact ⟨by decide, wide, decimal, evaluated false, assigned "end" (by decide)⟩

end GuestProbe.CommandLine
