/-! # Text measured in UTF-8 bytes

Positions and lengths are counted in the bytes of a text's UTF-8 form, while text itself is handled
as characters. `byteLength` measures a text, `splitBytes?` cuts it at a byte position and
`takeBytes` keeps as many whole characters as fit into a number of bytes.

`splitBytes?` answers exactly at the character boundaries: its lemma says that a cut exists at an
offset precisely when some leading part of the text has that byte length.
-/

namespace GuestProbe.Text

/-- The number of bytes in the UTF-8 form of a text. -/
def byteLength : List Char → Nat
  | [] => 0
  | first :: rest => first.utf8Size + byteLength rest

@[simp] theorem byteLength_nil : byteLength [] = 0 := rfl

@[simp] theorem byteLength_cons (first : Char) (rest : List Char) :
    byteLength (first :: rest) = first.utf8Size + byteLength rest := rfl

@[simp] theorem byteLength_append (left right : List Char) :
    byteLength (left ++ right) = byteLength left + byteLength right := by
  induction left with
  | nil => simp
  | cons first rest ih => simp [ih, Nat.add_assoc]

theorem byteLength_eq_zero_iff (text : List Char) : byteLength text = 0 ↔ text = [] := by
  cases text with
  | nil => simp
  | cons first rest =>
    have positive := first.utf8Size_pos
    simp only [byteLength_cons, reduceCtorEq, iff_false]
    omega

/-- Cuts a text at a byte offset, if the offset is a character boundary of the text. -/
def splitBytes? : Nat → List Char → Option (List Char × List Char)
  | 0, text => some ([], text)
  | _ + 1, [] => none
  | offset + 1, first :: rest =>
      if first.utf8Size ≤ offset + 1 then
        (splitBytes? (offset + 1 - first.utf8Size) rest).map
          fun (front, back) => (first :: front, back)
      else none

theorem splitBytes?_byteLength (front back : List Char) :
    splitBytes? (byteLength front) (front ++ back) = some (front, back) := by
  induction front with
  | nil => cases back <;> rfl
  | cons first rest ih =>
    have positive := first.utf8Size_pos
    obtain ⟨offset, same⟩ : ∃ offset, byteLength (first :: rest) = offset + 1 :=
      ⟨byteLength (first :: rest) - 1, by simp only [byteLength_cons]; omega⟩
    have remaining : offset + 1 - first.utf8Size = byteLength rest := by
      rw [← same, byteLength_cons]; omega
    have fits : first.utf8Size ≤ offset + 1 := by
      rw [← same, byteLength_cons]; omega
    rw [same, List.cons_append, splitBytes?, if_pos fits, remaining, ih]
    rfl

theorem splitBytes?_eq_some_iff (offset : Nat) (text front back : List Char) :
    splitBytes? offset text = some (front, back) ↔
      text = front ++ back ∧ offset = byteLength front := by
  constructor
  · induction text generalizing offset front with
    | nil =>
      cases offset with
      | zero => simp +contextual [splitBytes?]
      | succ offset => simp [splitBytes?]
    | cons first rest ih =>
      cases offset with
      | zero =>
        intro cut
        simp only [splitBytes?, Option.some.injEq, Prod.mk.injEq] at cut
        obtain ⟨rfl, rfl⟩ := cut
        simp
      | succ offset =>
        intro cut
        simp only [splitBytes?] at cut
        split at cut
        · next fits =>
          obtain ⟨⟨inner, tail⟩, inside, same⟩ := Option.map_eq_some_iff.mp cut
          simp only [Prod.mk.injEq] at same
          obtain ⟨rfl, rfl⟩ := same
          obtain ⟨rfl, length⟩ := ih _ _ inside
          refine ⟨rfl, ?_⟩
          rw [byteLength_cons, ← length]
          omega
        · cases cut
  · rintro ⟨rfl, rfl⟩
    exact splitBytes?_byteLength front back

/-- The longest leading part of a text that takes at most `limit` bytes. -/
def takeBytes : Nat → List Char → List Char
  | _, [] => []
  | limit, first :: rest =>
      if first.utf8Size ≤ limit then first :: takeBytes (limit - first.utf8Size) rest else []

theorem byteLength_takeBytes_le (limit : Nat) (text : List Char) :
    byteLength (takeBytes limit text) ≤ limit := by
  induction text generalizing limit with
  | nil => simp [takeBytes]
  | cons first rest ih =>
    simp only [takeBytes]
    split
    · next fits =>
      have inside := ih (limit - first.utf8Size)
      rw [byteLength_cons]
      omega
    · simp

theorem takeBytes_of_le (limit : Nat) (text : List Char) (fits : byteLength text ≤ limit) :
    takeBytes limit text = text := by
  induction text generalizing limit with
  | nil => rfl
  | cons first rest ih =>
    rw [byteLength_cons] at fits
    rw [takeBytes, if_pos (by omega), ih _ (by omega)]

/-- Decodes bytes as UTF-8, refusing malformed sequences. -/
def decode? (bytes : List UInt8) : Option (List Char) :=
  (String.fromUTF8? ⟨bytes.toArray⟩).map String.toList

end GuestProbe.Text
