import Mathlib.Data.List.Basic

/-!
# Texts and their UTF-8 bytes

`encoded` is the UTF-8 encoding of a list of characters, so a byte string is
valid UTF-8 when it is `encoded` of some list. The lemmas say how it behaves at
its end: a byte below 0x80 is a whole character, and taking one byte away takes
one character away exactly then.
-/

namespace Nookobo.Text

/-- The UTF-8 bytes of a text. -/
def encoded (text : List Char) : List UInt8 := text.flatMap String.utf8EncodeChar

/-- No characters have no bytes. -/
@[simp] theorem encoded_nil : encoded [] = [] := rfl

/-- Two texts are encoded one after the other. -/
@[simp] theorem encoded_append (first second : List Char) :
    encoded (first ++ second) = encoded first ++ encoded second :=
  List.flatMap_append

/-- One character has its own bytes. -/
theorem encoded_singleton (char : Char) : encoded [char] = String.utf8EncodeChar char :=
  List.append_nil _

/-- A byte that follows others in its character has its high bit set. -/
theorem not_continuation_lt (value : Nat) : ¬ UInt8.ofNat (value % 0x40 + 0x80) < 0x80 := by
  rw [UInt8.lt_iff_toNat_lt, UInt8.toNat_ofNat']
  have bound : value % 0x40 < 0x40 := Nat.mod_lt _ (by decide)
  have small : (value % 0x40 + 0x80) % 2 ^ 8 = value % 0x40 + 0x80 := by omega
  rw [small]
  exact Nat.not_lt.mpr (Nat.le_add_left _ _)

/-- The last byte of a character tells whether it is the only one. -/
theorem utf8EncodeChar_last (char : Char) :
    ∃ (front : List UInt8) (last : UInt8), String.utf8EncodeChar char = front ++ [last] ∧
      (last < 0x80 ↔ front = []) := by
  have high := not_continuation_lt char.val.toNat
  unfold String.utf8EncodeChar
  dsimp only
  split
  · next ascii =>
    refine ⟨[], _, rfl, fun _ => rfl, fun _ => ?_⟩
    rw [UInt8.lt_iff_toNat_lt, UInt8.toNat_ofNat']
    have bound : char.val.toNat % 2 ^ 8 = char.val.toNat := by omega
    rw [bound]
    exact Nat.lt_succ_of_le ascii
  · split
    · exact ⟨[_], _, rfl, fun low => absurd low high, fun empty => by simp at empty⟩
    · split
      · exact ⟨[_, _], _, rfl, fun low => absurd low high, fun empty => by simp at empty⟩
      · exact ⟨[_, _, _], _, rfl, fun low => absurd low high, fun empty => by simp at empty⟩

/-- Taking the last byte takes the last character when that character is one byte, and only
then. -/
theorem dropLast_encoded_iff (text : List Char) :
    (encoded text).dropLast = encoded text.dropLast ↔
      ∀ byte ∈ (encoded text).getLast?, byte < 0x80 := by
  rcases List.eq_nil_or_concat text with rfl | ⟨front, char, rfl⟩
  · simp
  · obtain ⟨bytes, last, encodes, single⟩ := utf8EncodeChar_last char
    rw [List.concat_eq_append, encoded_append, encoded_singleton, encodes, ← List.append_assoc,
      List.dropLast_concat, List.dropLast_concat, List.getLast?_concat]
    constructor
    · intro same byte isLast
      cases isLast
      exact single.mpr (List.append_right_eq_self.mp same)
    · intro low
      rw [single.mp (low last rfl), List.append_nil]

/-- The bytes of a character below U+0800. -/
theorem utf8EncodeChar_ofNat {codePoint : Nat} (small : codePoint < 0x800) :
    String.utf8EncodeChar (Char.ofNat codePoint) =
      if codePoint < 0x80 then [codePoint.toUInt8]
      else [(0xC0 + codePoint / 64).toUInt8, (0x80 + codePoint % 64).toUInt8] := by
  have valid : codePoint.isValidChar := .inl (by omega)
  have value : (Char.ofNat codePoint).val.toNat = codePoint := by
    unfold Char.ofNat
    rw [dif_pos valid]
    rfl
  unfold String.utf8EncodeChar
  dsimp only
  rw [value]
  by_cases ascii : codePoint < 0x80
  · rw [if_pos (Nat.le_of_lt_succ ascii), if_pos ascii]
  · have fits : codePoint / 64 % 0x20 = codePoint / 64 := Nat.mod_eq_of_lt (by omega)
    rw [if_neg (by omega), if_pos (by omega), if_neg ascii, fits, Nat.add_comm,
      Nat.add_comm (codePoint % 64)]

end Nookobo.Text
