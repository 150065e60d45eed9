import GuestProbe.Text.Utf8
import GuestProbe.Text.WordCharacter

/-! # ASCII text

The classes of ASCII characters are ranges of code points. In a text of ASCII characters, as words
are, bytes and characters count the same: taking as much as fits
into a number of bytes is taking that number of characters.
-/

namespace GuestProbe.Text

/-! ## Classes of characters -/

theorem inRange_iff (first last character : Char) :
    (decide (first.val ≤ character.val) && decide (character.val ≤ last.val)) = true ↔
      first.toNat ≤ character.toNat ∧ character.toNat ≤ last.toNat := by
  rw [Bool.and_eq_true, decide_eq_true_eq, decide_eq_true_eq, UInt32.le_iff_toNat_le,
    UInt32.le_iff_toNat_le]
  rfl

theorem isUpper_iff (character : Char) :
    character.isUpper = true ↔ 65 ≤ character.toNat ∧ character.toNat ≤ 90 :=
  decide_eq_true_iff.trans (and_congr UInt32.le_iff_toNat_le UInt32.le_iff_toNat_le)

theorem isLower_iff (character : Char) :
    character.isLower = true ↔ 97 ≤ character.toNat ∧ character.toNat ≤ 122 :=
  inRange_iff 'a' 'z' character

theorem isAlpha_iff (character : Char) :
    character.isAlpha = true ↔ 65 ≤ character.toNat ∧ character.toNat ≤ 90 ∨
      97 ≤ character.toNat ∧ character.toNat ≤ 122 := by
  rw [← isUpper_iff, ← isLower_iff, ← Bool.or_eq_true]
  rfl

theorem isDigit_iff (character : Char) :
    character.isDigit = true ↔ 48 ≤ character.toNat ∧ character.toNat ≤ 57 :=
  inRange_iff '0' '9' character

theorem isHexDigit_iff (character : Char) :
    character.isHexDigit = true ↔ (48 ≤ character.toNat ∧ character.toNat ≤ 57 ∨
      97 ≤ character.toNat ∧ character.toNat ≤ 102) ∨
        65 ≤ character.toNat ∧ character.toNat ≤ 70 := by
  have lower := inRange_iff 'a' 'f' character
  have upper := inRange_iff 'A' 'F' character
  rw [← isDigit_iff]
  exact Bool.or_eq_true_iff.trans (or_congr (Bool.or_eq_true_iff.trans (or_congr .rfl lower)) upper)

theorem isAsciiWordCharacter_iff (character : Char) :
    isAsciiWordCharacter character = true ↔ ((65 ≤ character.toNat ∧ character.toNat ≤ 90 ∨
      97 ≤ character.toNat ∧ character.toNat ≤ 122) ∨
        48 ≤ character.toNat ∧ character.toNat ≤ 57) ∨ character.toNat = 95 := by
  have underscore : (character == '_') = true ↔ character.toNat = 95 := by
    rw [beq_iff_eq, ← Char.toNat_inj]
    rfl
  rw [← isAlpha_iff, ← isDigit_iff, ← underscore, ← Bool.or_eq_true, ← Bool.or_eq_true]
  rfl

theorem toNat_lt_of_isAsciiWordCharacter {character : Char}
    (isWord : isAsciiWordCharacter character = true) : character.toNat < 0x80 := by
  rw [isAsciiWordCharacter_iff] at isWord
  omega

theorem isAsciiWordCharacter_of_isAlpha {character : Char} (letter : character.isAlpha = true) :
    isAsciiWordCharacter character = true := by
  rw [isAlpha_iff] at letter
  rw [isAsciiWordCharacter_iff]
  omega

theorem isAsciiWordCharacter_of_isDigit {character : Char} (digit : character.isDigit = true) :
    isAsciiWordCharacter character = true := by
  rw [isDigit_iff] at digit
  rw [isAsciiWordCharacter_iff]
  omega

theorem isAsciiWordCharacter_of_isHexDigit {character : Char}
    (digit : character.isHexDigit = true) : isAsciiWordCharacter character = true := by
  rw [isHexDigit_iff] at digit
  rw [isAsciiWordCharacter_iff]
  omega

/-! ## Bytes and characters -/

theorem utf8Size_of_isAsciiWordCharacter {character : Char}
    (isWord : isAsciiWordCharacter character = true) : character.utf8Size = 1 := by
  rw [Char.utf8Size_eq_one_iff, UInt32.le_iff_toNat_le]
  exact Nat.le_of_lt_succ (toNat_lt_of_isAsciiWordCharacter isWord)

theorem takeBytes_eq_take (limit : Nat) {text : List Char}
    (single : ∀ character ∈ text, character.utf8Size = 1) :
    takeBytes limit text = text.take limit := by
  induction text generalizing limit with
  | nil => rw [takeBytes, List.take_nil]
  | cons first rest ih =>
    have later := fun limit =>
      ih limit fun character member => single character (List.mem_cons_of_mem _ member)
    rw [takeBytes, single first List.mem_cons_self]
    cases limit with
    | zero => rfl
    | succ limit =>
      rw [if_pos (Nat.succ_le_succ (Nat.zero_le limit)), Nat.add_sub_cancel, later,
        List.take_succ_cons]

end GuestProbe.Text
