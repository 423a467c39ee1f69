import Mathlib.Algebra.Group.Nat.Defs
import Nookobo.Text.Scan

/-!
# Numbers as texts

`numeral` is the usual text of a number in some base up to 16, without leading zeros;
`readNumeral` reads such a text back, in either case of the letters. They are what a formatter
written by hand is compared with.
-/

namespace Nookobo.Text

/-- The byte of a digit below 16. -/
def digitByte (digit : Nat) : UInt8 := digit.digitChar.toNat.toUInt8

/-- What a byte is worth as a digit. -/
def digitValue (byte : UInt8) : Option Nat :=
  if isDigit byte then some (byte.toNat - 48)
  else if 97 ≤ byte ∧ byte ≤ 102 then some (byte.toNat - 87)
  else if 65 ≤ byte ∧ byte ≤ 70 then some (byte.toNat - 55)
  else none

/-- The text of a number. -/
def numeral (base number : Nat) : List UInt8 :=
  (Nat.toDigits base number).map fun char => char.toNat.toUInt8

/-- One more digit behind what was read so far. -/
def pushDigit (base : Nat) (value : Option Nat) (byte : UInt8) : Option Nat :=
  value.bind fun value =>
    (digitValue byte).bind fun digit => if digit < base then some (base * value + digit) else none

/-- The number that a text stands for, if every byte of it is a digit and there is one. -/
def readNumeral (base : Nat) (text : List UInt8) : Option Nat :=
  if text = [] then none else text.foldl (pushDigit base) (some 0)

/-- A digit is read back. -/
theorem digitValue_digitByte {digit : Nat} (small : digit < 16) :
    digitValue (digitByte digit) = some digit := by
  have all : ∀ digit : Fin 16, digitValue (digitByte digit) = some digit.val := by decide
  exact all ⟨digit, small⟩

/-- A decimal digit is one. -/
theorem isDigit_digitByte {digit : Nat} (small : digit < 10) :
    isDigit (digitByte digit) = true := by
  have all : ∀ digit : Fin 10, isDigit (digitByte digit) = true := by decide
  exact all ⟨digit, small⟩

/-- One more digit multiplies and adds. -/
theorem pushDigit_some {base digit : Nat} {byte : UInt8} (reads : digitValue byte = some digit)
    (small : digit < base) (value : Nat) :
    pushDigit base (some value) byte = some (base * value + digit) := by
  unfold pushDigit
  rw [reads, Option.bind_some, Option.bind_some, if_pos small]

/-- What is no digit cannot be read over. -/
theorem foldl_pushDigit_none (base : Nat) (text : List UInt8) :
    text.foldl (pushDigit base) none = none := by
  induction text with
  | nil => rfl
  | cons byte rest ih => exact ih

/-- A text with a byte that is no digit stands for no number. -/
theorem readNumeral_of_mem {byte : UInt8} {text : List UInt8} (bad : digitValue byte = none)
    (member : byte ∈ text) (base : Nat) : readNumeral base text = none := by
  obtain ⟨front, back, rfl⟩ := List.append_of_mem member
  have stops : ∀ value, pushDigit base value byte = none := by
    intro value
    unfold pushDigit
    cases value with
    | none => rfl
    | some value => rw [bad, Option.bind_some, Option.bind_none]
  unfold readNumeral
  rw [if_neg (List.append_ne_nil_of_right_ne_nil _ (List.cons_ne_nil _ _)), List.foldl_append,
    List.foldl_cons, stops, foldl_pushDigit_none]

section Numeral

variable {base number : Nat}

/-- A number below the base is one digit. -/
theorem numeral_of_lt (small : number < base) : numeral base number = [digitByte number] := by
  unfold numeral
  rw [Nat.toDigits_of_lt_base small]
  rfl

/-- A longer text ends in its last digit. -/
theorem numeral_of_le (proper : 1 < base) (large : base ≤ number) :
    numeral base number = numeral base (number / base) ++ [digitByte (number % base)] := by
  unfold numeral
  rw [Nat.toDigits_of_base_le proper large, List.map_append]
  rfl

/-- Every number has digits. -/
theorem numeral_ne_nil (base number : Nat) : numeral base number ≠ [] := by
  unfold numeral
  rw [ne_eq, List.map_eq_nil_iff]
  exact Nat.toDigits_ne_nil

/-- Reading digit by digit gives the number. -/
theorem foldl_numeral (proper : 1 < base) (known : base ≤ 16) (number : Nat) :
    (numeral base number).foldl (pushDigit base) (some 0) = some number := by
  induction number using Nat.strongRecOn with
  | _ number ih =>
      have small : number % base < base := Nat.mod_lt _ (by omega)
      by_cases single : number < base
      · have reads := digitValue_digitByte (Nat.lt_of_lt_of_le single known)
        rw [numeral_of_lt single]
        exact (pushDigit_some reads single 0).trans (by simp)
      · have reads := digitValue_digitByte (Nat.lt_of_lt_of_le small known)
        rw [numeral_of_le proper (Nat.le_of_not_lt single), List.foldl_append,
          ih _ (Nat.div_lt_self (by omega) proper)]
        exact (pushDigit_some reads small _).trans (congrArg some (Nat.div_add_mod number base))

/-- A numeral is read back. -/
theorem readNumeral_numeral (proper : 1 < base) (known : base ≤ 16) (number : Nat) :
    readNumeral base (numeral base number) = some number := by
  unfold readNumeral
  rw [if_neg (numeral_ne_nil base number)]
  exact foldl_numeral proper known number

/-- A number below a power of the base has no more digits than its exponent. -/
theorem length_numeral_le (proper : 1 < base) {count : Nat} (some : 0 < count)
    (fits : number < base ^ count) : (numeral base number).length ≤ count := by
  unfold numeral
  rw [List.length_map]
  exact (Nat.length_toDigits_le_iff proper some).mpr fits

/-- A decimal number is written in digits. -/
theorem isDigit_numeral (number : Nat) : ∀ byte ∈ numeral 10 number, isDigit byte = true := by
  induction number using Nat.strongRecOn with
  | _ number ih =>
      by_cases single : number < 10
      · rw [numeral_of_lt single]
        intro byte member
        rw [List.mem_singleton.mp member]
        exact isDigit_digitByte single
      · rw [numeral_of_le (by decide) (Nat.le_of_not_lt single)]
        intro byte member
        rcases List.mem_append.mp member with front | last
        · exact ih _ (Nat.div_lt_self (by omega) (by decide)) byte front
        · rw [List.mem_singleton.mp last]
          exact isDigit_digitByte (Nat.mod_lt _ (by decide))

/-- Digits are neither white space nor a line break. -/
theorem isSpace_of_isDigit {byte : UInt8} (digit : isDigit byte = true) : isSpace byte = false := by
  unfold isDigit at digit
  unfold isSpace
  rw [Bool.and_eq_true, decide_eq_true_eq, decide_eq_true_eq, UInt8.le_iff_toNat_le,
    UInt8.le_iff_toNat_le] at digit
  have low : (48 : UInt8).toNat = 48 := rfl
  have blank : byte ≠ 32 := by
    rintro rfl
    exact absurd digit.1 (by decide)
  have high : ¬ byte ≤ 13 := by
    rw [UInt8.le_iff_toNat_le]
    have thirteen : (13 : UInt8).toNat = 13 := rfl
    omega
  rw [beq_false_of_ne blank, decide_eq_false high, Bool.and_false, Bool.or_self]

/-- A numeral has no line feed. -/
theorem lineFeed_notMem_numeral (number : Nat) : lineFeed ∉ numeral 10 number := by
  intro member
  exact absurd (isDigit_numeral number lineFeed member) (by decide)

end Numeral

end Nookobo.Text
