import Mathlib.Data.List.DropRight
import Nookobo.Text.Encoding

/-!
# Valid UTF-8

A byte string is valid UTF-8 when it encodes some text. A byte below 0x80 is
always a character of its own, so such bytes may be replaced by others like
them, and taken off either end, without breaking the characters that remain.
-/

namespace Nookobo.Text

/-- The bytes are the encoding of some text. -/
def ValidUtf8 (bytes : List UInt8) : Prop := ∃ text : List Char, encoded text = bytes

/-- The empty text is valid. -/
theorem validUtf8_nil : ValidUtf8 [] := ⟨[], rfl⟩

/-- Valid texts are valid one behind the other. -/
theorem ValidUtf8.append {first second : List UInt8} (left : ValidUtf8 first)
    (right : ValidUtf8 second) : ValidUtf8 (first ++ second) := by
  obtain ⟨front, rfl⟩ := left
  obtain ⟨back, rfl⟩ := right
  exact ⟨front ++ back, encoded_append front back⟩

/-- The first character is encoded first. -/
theorem encoded_cons (char : Char) (text : List Char) :
    encoded (char :: text) = String.utf8EncodeChar char ++ encoded text :=
  List.flatMap_cons

/-- A character is one byte below 0x80, or has only bytes from 0x80 on. -/
theorem utf8EncodeChar_cases (char : Char) :
    (char.toNat < 0x80 ∧ String.utf8EncodeChar char = [UInt8.ofNat char.toNat]) ∨
      (0x80 ≤ char.toNat ∧ String.utf8EncodeChar char ≠ [] ∧
        ∀ byte ∈ String.utf8EncodeChar char, ¬ byte < 0x80) := by
  have high : ∀ value base : Nat, 0x80 ≤ base → value + base < 256 →
      ¬ UInt8.ofNat (value + base) < 0x80 := by
    intro value base large small
    rw [UInt8.lt_iff_toNat_lt, UInt8.toNat_ofNat', Nat.mod_eq_of_lt small]
    exact Nat.not_lt.mpr (le_trans large (Nat.le_add_left _ _))
  unfold String.utf8EncodeChar
  dsimp only
  split
  · next ascii => exact .inl ⟨Nat.lt_succ_of_le ascii, rfl⟩
  · next long =>
    refine .inr ⟨Nat.lt_of_not_le long, ?_⟩
    split
    · simp only [ne_eq, reduceCtorEq, not_false_eq_true, List.forall_mem_cons, List.not_mem_nil,
        false_implies, implies_true, and_true, true_and]
      exact ⟨high _ _ (by omega) (by omega), high _ _ (by omega) (by omega)⟩
    · split
      · simp only [ne_eq, reduceCtorEq, not_false_eq_true, List.forall_mem_cons,
          List.not_mem_nil, false_implies, implies_true, and_true, true_and]
        exact ⟨high _ _ (by omega) (by omega), high _ _ (by omega) (by omega),
          high _ _ (by omega) (by omega)⟩
      · simp only [ne_eq, reduceCtorEq, not_false_eq_true, List.forall_mem_cons,
          List.not_mem_nil, false_implies, implies_true, and_true, true_and]
        exact ⟨high _ _ (by omega) (by omega), high _ _ (by omega) (by omega),
          high _ _ (by omega) (by omega), high _ _ (by omega) (by omega)⟩

/-- A byte below 0x80 is the encoding of a character. -/
theorem utf8EncodeChar_ofNat_toNat {byte : UInt8} (ascii : byte < 0x80) :
    String.utf8EncodeChar (Char.ofNat byte.toNat) = [byte] := by
  rw [UInt8.lt_iff_toNat_lt] at ascii
  have small : byte.toNat < 0x80 := ascii
  rw [utf8EncodeChar_ofNat (lt_trans small (by decide)), if_pos small]
  simp

/-- A byte of ASCII is valid. -/
theorem validUtf8_singleton {byte : UInt8} (ascii : byte < 0x80) : ValidUtf8 [byte] :=
  ⟨[Char.ofNat byte.toNat], by rw [encoded_singleton, utf8EncodeChar_ofNat_toNat ascii]⟩

/-- An ASCII byte at the front is a character of its own. -/
theorem validUtf8_cons_iff {byte : UInt8} (ascii : byte < 0x80) (rest : List UInt8) :
    ValidUtf8 (byte :: rest) ↔ ValidUtf8 rest := by
  refine ⟨?_, fun valid => (validUtf8_singleton ascii).append valid⟩
  rintro ⟨text, encodes⟩
  cases text with
  | nil => cases encodes
  | cons char text =>
      rw [encoded_cons] at encodes
      rcases utf8EncodeChar_cases char with ⟨-, single⟩ | ⟨-, nonempty, high⟩
      · rw [single] at encodes
        exact ⟨text, (List.cons.inj encodes).2⟩
      · obtain ⟨first, others, shape⟩ := List.exists_cons_of_ne_nil nonempty
        rw [shape] at encodes high
        cases (List.cons.inj encodes).1
        exact absurd ascii (high byte List.mem_cons_self)

/-- An ASCII byte at the end is a character of its own. -/
theorem validUtf8_concat_iff {byte : UInt8} (ascii : byte < 0x80) (front : List UInt8) :
    ValidUtf8 (front ++ [byte]) ↔ ValidUtf8 front := by
  refine ⟨?_, fun valid => valid.append (validUtf8_singleton ascii)⟩
  rintro ⟨text, encodes⟩
  have shorter := (dropLast_encoded_iff text).mpr fun last isLast => by
    rw [encodes, List.getLast?_concat] at isLast
    cases isLast
    exact ascii
  rw [encodes, List.dropLast_concat] at shorter
  exact ⟨text.dropLast, shorter.symm⟩

/-- Taking ASCII bytes off the front. -/
theorem ValidUtf8.dropWhile {bytes : List UInt8} (valid : ValidUtf8 bytes) {p : UInt8 → Bool}
    (ascii : ∀ byte, p byte = true → byte < 0x80) : ValidUtf8 (bytes.dropWhile p) := by
  induction bytes with
  | nil => exact valid
  | cons byte rest ih =>
      rw [List.dropWhile_cons]
      split
      · next dropped => exact ih ((validUtf8_cons_iff (ascii byte dropped) rest).mp valid)
      · exact valid

/-- Taking ASCII bytes off the end. -/
theorem ValidUtf8.rdropWhile {bytes : List UInt8} (valid : ValidUtf8 bytes) {p : UInt8 → Bool}
    (ascii : ∀ byte, p byte = true → byte < 0x80) : ValidUtf8 (bytes.rdropWhile p) := by
  induction bytes using List.reverseRecOn with
  | nil => exact valid
  | append_singleton front byte ih =>
      rw [List.rdropWhile_concat]
      split
      · next dropped => exact ih ((validUtf8_concat_iff (ascii byte dropped) front).mp valid)
      · exact valid

/-- Replacing ASCII bytes by ASCII bytes. -/
theorem ValidUtf8.map {bytes : List UInt8} (valid : ValidUtf8 bytes) {f : UInt8 → UInt8}
    (ascii : ∀ byte, byte < 0x80 → f byte < 0x80) (high : ∀ byte, ¬ byte < 0x80 → f byte = byte) :
    ValidUtf8 (bytes.map f) := by
  obtain ⟨text, rfl⟩ := valid
  induction text with
  | nil => exact validUtf8_nil
  | cons char text ih =>
      rw [encoded_cons, List.map_append]
      refine ValidUtf8.append ?_ ih
      rcases utf8EncodeChar_cases char with ⟨small, single⟩ | ⟨-, -, above⟩
      · rw [single]
        refine validUtf8_singleton (ascii _ ?_)
        rw [UInt8.lt_iff_toNat_lt, UInt8.toNat_ofNat', Nat.mod_eq_of_lt (by omega)]
        exact small
      · rw [List.map_congr_left fun byte member => high byte (above byte member), List.map_id']
        exact ⟨[char], encoded_singleton char⟩

end Nookobo.Text
