import GuestProbe.Proofs.Text.Ascii
import GuestProbe.Text.Numeral
import Mathlib.Data.Nat.Digits.Defs
import Mathlib.Tactic.Ring

/-! # Numbers in positional notation

`numeral` is the number that a sequence of digits denotes. Reading the digits of any number of them
gives that number if it fits into a word and refuses it as too large otherwise (`readDigits_eq`),
although the reader sees only one digit at a time and stops at the first excess. The digits of which
a number is written denote it (`numeral_toDigits`), also with zeros in front of them.
-/

namespace GuestProbe.Text

/-! ## Digits -/

/-- The value of a digit: its position among the digits of radix 16. -/
def digit (character : Char) : Nat :=
  ['0', '1', '2', '3', '4', '5', '6', '7', '8', '9', 'a', 'b', 'c', 'd', 'e', 'f'].idxOf
    character.toLower

theorem digitValue?_of_isDigit {character : Char} (isDigit : character.isDigit = true) :
    digitValue? 10 character = some (digit character) := by
  have all : ∀ code : Fin 128, (Char.ofNat code).isDigit = true →
      digitValue? 10 (Char.ofNat code) = some (digit (Char.ofNat code)) := by
    decide
  have small := toNat_lt_of_isAsciiWordCharacter (isAsciiWordCharacter_of_isDigit isDigit)
  have here := all ⟨character.toNat, small⟩
  simp only [Char.ofNat_toNat] at here
  exact here isDigit

theorem digitValue?_of_isHexDigit {character : Char} (isDigit : character.isHexDigit = true) :
    digitValue? 16 character = some (digit character) := by
  have all : ∀ code : Fin 128, (Char.ofNat code).isHexDigit = true →
      digitValue? 16 (Char.ofNat code) = some (digit (Char.ofNat code)) := by
    decide
  have small := toNat_lt_of_isAsciiWordCharacter (isAsciiWordCharacter_of_isHexDigit isDigit)
  have here := all ⟨character.toNat, small⟩
  simp only [Char.ofNat_toNat] at here
  exact here isDigit

theorem isHexDigit_of_digitValue? {character : Char} {value : Nat}
    (valid : digitValue? 16 character = some value) : character.isHexDigit = true := by
  have between {first last : Char} (range : first ≤ character ∧ character ≤ last) :
      first.toNat ≤ character.toNat ∧ character.toNat ≤ last.toNat :=
    ⟨UInt32.le_iff_toNat_le.mp range.1, UInt32.le_iff_toNat_le.mp range.2⟩
  obtain ⟨found, -⟩ := Option.filter_eq_some_iff.mp valid
  rw [isHexDigit_iff]
  split at found
  · next range => exact .inl (.inl (between range))
  · split at found
    · next range => exact .inl (.inr (between range))
    · split at found
      · next range => exact .inr (between range)
      · cases found

/-! ## Numbers -/

/-- The number that digits denote in a radix. The last digit counts least. -/
def numeral (radix : Nat) (digits : List Char) : Nat :=
  Nat.ofDigits radix (digits.reverse.map digit)

theorem numeral_append (radix : Nat) (front back : List Char) :
    numeral radix (front ++ back) =
      numeral radix front * radix ^ back.length + numeral radix back := by
  rw [numeral, List.reverse_append, List.map_append, Nat.ofDigits_append, List.length_map,
    List.length_reverse, Nat.mul_comm, Nat.add_comm]
  rfl

theorem numeral_singleton (radix : Nat) (character : Char) :
    numeral radix [character] = digit character := by
  rw [numeral, List.reverse_singleton, List.map_singleton, Nat.ofDigits_singleton]

theorem numeral_cons (radix : Nat) (first : Char) (rest : List Char) :
    numeral radix (first :: rest) = digit first * radix ^ rest.length + numeral radix rest := by
  rw [← List.singleton_append, numeral_append, numeral_singleton]

/-- The first digits of a number denote no greater number. -/
theorem numeral_take_le {radix : Nat} (positive : 0 < radix) (count : Nat) (digits : List Char) :
    numeral radix (digits.take count) ≤ numeral radix digits := by
  have split := numeral_append radix (digits.take count) (digits.drop count)
  rw [List.take_append_drop] at split
  have grows : numeral radix (digits.take count) ≤
      numeral radix (digits.take count) * radix ^ (digits.drop count).length :=
    Nat.le_mul_of_pos_right _ (Nat.pow_pos positive)
  omega

/-- The first digits of a number denote a smaller one, unless all digits are zeros. -/
theorem numeral_eq_zero_of_take {radix count : Nat} {digits : List Char} (large : 2 ≤ radix)
    (shorter : count < digits.length)
    (same : numeral radix (digits.take count) = numeral radix digits) :
    numeral radix digits = 0 := by
  have split := numeral_append radix (digits.take count) (digits.drop count)
  rw [List.take_append_drop, ← same] at split
  have dropped : (digits.drop count).length ≠ 0 := by
    rw [List.length_drop]
    omega
  have scale : 2 ≤ radix ^ (digits.drop count).length :=
    Nat.le_trans large (Nat.le_self_pow dropped radix)
  have grows := Nat.mul_le_mul_left (numeral radix (digits.take count)) scale
  rw [← same]
  omega

/-! ## Written numbers -/

theorem digit_digitChar {value : Nat} (small : value < 16) : digit value.digitChar = value := by
  have all : ∀ value : Fin 16, digit value.val.digitChar = value.val := by decide
  exact all ⟨value, small⟩

theorem isHexDigit_digitChar {value : Nat} (small : value < 16) :
    value.digitChar.isHexDigit = true := by
  have all : ∀ value : Fin 16, value.val.digitChar.isHexDigit = true := by decide
  exact all ⟨value, small⟩

/-- The digits of which a number is written denote the number. -/
theorem numeral_toDigits {radix : Nat} (large : 1 < radix) (small : radix ≤ 16) (number : Nat) :
    numeral radix (Nat.toDigits radix number) = number := by
  induction number using Nat.base_induction radix large with
  | single last lt =>
    rw [Nat.toDigits_of_lt_base lt, numeral_singleton,
      digit_digitChar (Nat.lt_of_lt_of_le lt small)]
  | digit last front lt positive ih =>
    rw [← Nat.toDigits_append_toDigits large positive lt, numeral_append, ih,
      Nat.toDigits_of_lt_base lt, numeral_singleton, digit_digitChar (Nat.lt_of_lt_of_le lt small),
      List.length_singleton, Nat.pow_one, Nat.mul_comm]

theorem isHexDigit_of_mem_toDigits {number : Nat} {character : Char}
    (member : character ∈ Nat.toDigits 16 number) : character.isHexDigit = true := by
  induction number using Nat.base_induction 16 (by decide) with
  | single last lt =>
    rw [Nat.toDigits_of_lt_base lt, List.mem_singleton] at member
    rw [member]
    exact isHexDigit_digitChar lt
  | digit last front lt positive ih =>
    rw [← Nat.toDigits_append_toDigits (by decide) positive lt,
      Nat.toDigits_of_lt_base lt] at member
    rcases List.mem_append.mp member with before | here
    · exact ih before
    · rw [List.mem_singleton.mp here]
      exact isHexDigit_digitChar lt

/-- Zeros in front of digits denote nothing. -/
theorem numeral_leftpad (radix width : Nat) (digits : List Char) :
    numeral radix (digits.leftpad width '0') = numeral radix digits := by
  have zeros (count : Nat) : numeral radix (List.replicate count '0') = 0 := by
    induction count with
    | zero => rfl
    | succ count ih =>
      rw [List.replicate_succ, numeral_cons, ih]
      exact Nat.zero_mul _
  rw [List.leftpad, numeral_append, zeros, Nat.zero_mul, Nat.zero_add]

/-! ## Reading -/

/-- Reading digits gives the number that they continue, if that fits into a word. -/
theorem readDigits_eq {radix number : Nat} {digits : List Char} (positive : 0 < radix)
    (valid : ∀ character ∈ digits, digitValue? radix character = some (digit character))
    (fits : number < UInt32.size) :
    readDigits radix number digits =
      if number * radix ^ digits.length + numeral radix digits < UInt32.size then
        .ok (number * radix ^ digits.length + numeral radix digits)
      else .error .tooLarge := by
  induction digits generalizing number with
  | nil =>
    have same : number * radix ^ ([] : List Char).length + numeral radix [] = number := by
      simp [numeral]
    rw [same, if_pos fits, readDigits]
  | cons first rest ih =>
    have continued : number * radix ^ (first :: rest).length + numeral radix (first :: rest) =
        (number * radix + digit first) * radix ^ rest.length + numeral radix rest := by
      rw [numeral_cons, List.length_cons]
      ring
    rw [readDigits, valid first List.mem_cons_self, continued]
    by_cases next : number * radix + digit first < UInt32.size
    · simp only [if_pos next]
      exact ih (fun character member => valid character (List.mem_cons_of_mem _ member)) next
    · have grows : number * radix + digit first ≤
          (number * radix + digit first) * radix ^ rest.length :=
        Nat.le_mul_of_pos_right _ (Nat.pow_pos positive)
      simp only [if_neg next]
      rw [if_neg (by omega)]

theorem readWord_unsigned {radix : Nat} {digits : List Char} (more : digits ≠ [])
    (unsigned : ∀ rest, digits ≠ '+' :: rest) :
    readWord radix digits = (readDigits radix 0 digits).map UInt32.ofNat := by
  unfold readWord
  split
  · exact absurd rfl more
  · exact absurd rfl (unsigned [])
  · next rest _ => exact absurd rfl (unsigned rest)
  · rfl

/-- A plus sign in front of digits changes nothing. -/
theorem readWord_plus {radix : Nat} {digits : List Char} (more : digits ≠ [])
    (unsigned : ∀ rest, digits ≠ '+' :: rest) :
    readWord radix ('+' :: digits) = readWord radix digits := by
  rw [readWord_unsigned more unsigned]
  obtain ⟨first, rest, rfl⟩ := List.exists_cons_of_ne_nil more
  rfl

theorem ne_plus_of_valid {radix : Nat} {digits : List Char}
    (valid : ∀ character ∈ digits, digitValue? radix character = some (digit character))
    (rest : List Char) : digits ≠ '+' :: rest := by
  rintro rfl
  have sign := valid '+' List.mem_cons_self
  cases sign

/-- Reading digits gives the number that they denote. -/
theorem readWord_eq {radix : Nat} {digits : List Char} (positive : 0 < radix) (more : digits ≠ [])
    (valid : ∀ character ∈ digits, digitValue? radix character = some (digit character)) :
    readWord radix digits =
      if numeral radix digits < UInt32.size then .ok (UInt32.ofNat (numeral radix digits))
      else .error .tooLarge := by
  rw [readWord_unsigned more (ne_plus_of_valid valid), readDigits_eq positive valid (by decide),
    Nat.zero_mul, Nat.zero_add]
  split <;> rfl

/-- Digits that denote a word are read as the word. -/
theorem readWord_of_numeral {radix : Nat} {digits : List Char} {word : UInt32}
    (positive : 0 < radix) (more : digits ≠ [])
    (valid : ∀ character ∈ digits, digitValue? radix character = some (digit character))
    (denotes : numeral radix digits = word.toNat) : readWord radix digits = .ok word := by
  rw [readWord_eq positive more valid, denotes, if_pos word.toNat_lt, UInt32.ofNat_toNat]

/-- Only digits can be read. -/
theorem digits_of_readDigits {radix number result : Nat} {digits : List Char}
    (read : readDigits radix number digits = .ok result) :
    ∀ character ∈ digits, ∃ value, digitValue? radix character = some value := by
  induction digits generalizing number with
  | nil =>
    intro character member
    cases member
  | cons first rest ih =>
    rw [readDigits] at read
    intro character member
    cases valid : digitValue? radix first with
    | none =>
      rw [valid] at read
      cases read
    | some value =>
      rw [valid] at read
      rcases List.mem_cons.mp member with rfl | later
      · exact ⟨value, valid⟩
      · by_cases next : number * radix + value < UInt32.size
        · simp only [if_pos next] at read
          exact ih read character later
        · simp only [if_neg next] at read
          cases read

theorem numeral_of_readDigits {digits : List Char} {word : UInt32}
    (read : (readDigits 16 0 digits).map UInt32.ofNat = .ok word) :
    (∀ character ∈ digits, character.isHexDigit = true) ∧ numeral 16 digits = word.toNat := by
  cases found : readDigits 16 0 digits with
  | error error =>
    rw [found] at read
    cases read
  | ok number =>
    rw [found] at read
    have same : UInt32.ofNat number = word := Except.ok.inj read
    have areDigits : ∀ character ∈ digits, character.isHexDigit = true := by
      intro character member
      obtain ⟨value, valid⟩ := digits_of_readDigits found character member
      exact isHexDigit_of_digitValue? valid
    have valid := fun character member => digitValue?_of_isHexDigit (areDigits character member)
    have fits := readDigits_lt (by decide) found
    rw [readDigits_eq (by decide) valid (by decide), Nat.zero_mul, Nat.zero_add] at found
    split at found
    · refine ⟨areDigits, ?_⟩
      rw [← same, UInt32.toNat_ofNat_of_lt' fits]
      exact Except.ok.inj found
    · cases found

/-- The text is a hexadecimal number, which may have a plus sign, and denotes the word. -/
def IsHexNumber (text : List Char) (word : UInt32) : Prop :=
  ∃ digits, (text = digits ∨ text = '+' :: digits) ∧ digits ≠ [] ∧
    (∀ character ∈ digits, character.isHexDigit = true) ∧ numeral 16 digits = word.toNat

/-- The hexadecimal reader accepts the numbers that fit into a word, of any number of digits. -/
theorem readWord_eq_ok_iff (text : List Char) (word : UInt32) :
    readWord 16 text = .ok word ↔ IsHexNumber text word := by
  constructor
  · intro read
    unfold readWord at read
    split at read
    · cases read
    · cases read
    · next digits signed =>
      exact ⟨digits, .inr rfl, fun none => signed none, numeral_of_readDigits read⟩
    · next more _ _ => exact ⟨text, .inl rfl, more, numeral_of_readDigits read⟩
  · rintro ⟨digits, form, more, areDigits, value⟩
    have valid := fun character member => digitValue?_of_isHexDigit (areDigits character member)
    have read : readWord 16 digits = .ok word := readWord_of_numeral (by decide) more valid value
    rcases form with rfl | rfl
    · exact read
    · rw [readWord_plus more (ne_plus_of_valid valid), read]

end GuestProbe.Text
