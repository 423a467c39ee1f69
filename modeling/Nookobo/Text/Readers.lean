import Nookobo.Text.Lines

/-!
# How C and Lua read a line and a number

`fgets` returns a text piece by piece: a piece ends behind a line break or where the buffer is
full, so that a long line comes in several pieces. A number in Lua is a double: a whole number
with more than 53 binary digits is rounded, to the even one of two neighbours in the middle
between them, and a very large one is infinite.
-/

namespace Nookobo.Text

/-! ## `fgets` -/

/-- The pieces of a text that has begun with `current`. -/
def fgetsFrom (size : Nat) : List UInt8 → List UInt8 → List (List UInt8)
  | current, [] => flush current
  | current, byte :: rest =>
      if byte = lineFeed ∨ size ≤ current.length + 2 then
        (current ++ [byte]) :: fgetsFrom size [] rest
      else fgetsFrom size (current ++ [byte]) rest

/-- What the calls of `fgets` with a buffer of `size` bytes return, to the end of the text. -/
def fgetsAll (size : Nat) (text : List UInt8) : List (List UInt8) := fgetsFrom size [] text

section Fgets

variable {size : Nat} {line : List UInt8}

/-- A line break ends a piece. -/
theorem fgetsFrom_line (line current rest : List UInt8) :
    fgetsFrom size current (line ++ lineFeed :: rest) =
      fgetsFrom size current (line ++ [lineFeed]) ++ fgetsAll size rest := by
  induction line generalizing current with
  | nil =>
      rw [List.nil_append, List.nil_append, fgetsFrom, fgetsFrom, if_pos (.inl rfl),
        if_pos (.inl rfl)]
      rfl
  | cons byte line ih =>
      rw [List.cons_append, List.cons_append, fgetsFrom, fgetsFrom]
      split
      · rw [ih, List.cons_append]
      · exact ih _

/-- `fgets` reads a line and goes on behind it. -/
theorem fgetsAll_line (line rest : List UInt8) :
    fgetsAll size (line ++ lineFeed :: rest) =
      fgetsAll size (line ++ [lineFeed]) ++ fgetsAll size rest :=
  fgetsFrom_line line [] rest

/-- A line that fits into the buffer is one piece. -/
theorem fgetsFrom_short {current : List UInt8} (proper : lineFeed ∉ line)
    (fits : current.length + line.length + 2 ≤ size) :
    fgetsFrom size current (line ++ [lineFeed]) = [current ++ line ++ [lineFeed]] := by
  induction line generalizing current with
  | nil => rw [List.nil_append, fgetsFrom, if_pos (.inl rfl), List.append_nil]; rfl
  | cons byte line ih =>
      rw [List.mem_cons, not_or] at proper
      rw [List.length_cons] at fits
      have goesOn : ¬ (byte = lineFeed ∨ size ≤ current.length + 2) := by
        rintro (isBreak | full)
        · exact proper.1 isBreak.symm
        · omega
      have room : (current ++ [byte]).length + line.length + 2 ≤ size := by
        rw [List.length_append, List.length_singleton]
        omega
      rw [List.cons_append, fgetsFrom, if_neg goesOn, ih proper.2 room, List.append_assoc current,
        List.singleton_append]

/-- A line that fits the buffer is read at once. -/
theorem fgetsAll_short (proper : lineFeed ∉ line) (fits : line.length + 2 ≤ size) :
    fgetsAll size (line ++ [lineFeed]) = [line ++ [lineFeed]] :=
  fgetsFrom_short proper (by rw [List.length_nil]; omega)

/-- Where the line reaches beyond the buffer, the first piece is what fills the buffer. -/
theorem fgetsFrom_full {front current : List UInt8} (proper : lineFeed ∉ front)
    (some : front ≠ []) (fills : current.length + front.length + 1 = size) (rest : List UInt8) :
    fgetsFrom size current (front ++ rest) = (current ++ front) :: fgetsAll size rest := by
  induction front generalizing current with
  | nil => exact absurd rfl some
  | cons byte front ih =>
      rw [List.mem_cons, not_or] at proper
      rw [List.length_cons] at fills
      by_cases last : front = []
      · subst last
        have full : size ≤ current.length + 2 := by
          rw [List.length_nil] at fills
          omega
        rw [List.singleton_append, fgetsFrom, if_pos (.inr full)]
        rfl
      · have more := List.length_pos_iff.mpr last
        have goesOn : ¬ (byte = lineFeed ∨ size ≤ current.length + 2) := by
          rintro (isBreak | full)
          · exact proper.1 isBreak.symm
          · omega
        have fillsLater : (current ++ [byte]).length + front.length + 1 = size := by
          rw [List.length_append, List.length_singleton]
          omega
        rw [List.cons_append, fgetsFrom, if_neg goesOn, ih proper.2 last fillsLater,
          List.append_assoc current, List.singleton_append]

/-- Nothing is lost between the pieces. -/
theorem flatten_fgetsFrom (current text : List UInt8) :
    (fgetsFrom size current text).flatten = current ++ text := by
  induction text generalizing current with
  | nil =>
      rw [fgetsFrom, List.append_nil]
      by_cases empty : current = []
      · rw [empty]
        rfl
      · rw [flush_of_ne_nil empty, List.flatten_singleton]
  | cons byte rest ih =>
      rw [fgetsFrom]
      split
      · rw [List.flatten_cons, ih, List.nil_append, List.append_assoc, List.singleton_append]
      · rw [ih, List.append_assoc, List.singleton_append]

/-- A piece has no bytes but those of the text. -/
theorem mem_of_mem_fgetsAll {text piece : List UInt8} {byte : UInt8}
    (isPiece : piece ∈ fgetsAll size text) (member : byte ∈ piece) : byte ∈ text := by
  have whole : (fgetsFrom size [] text).flatten = [] ++ text := flatten_fgetsFrom [] text
  rw [List.nil_append] at whole
  rw [← whole]
  exact List.mem_flatten.mpr ⟨piece, isPiece, member⟩

end Fgets

/-! ## Numbers in Lua -/

/-- A number that is not negative, as Lua holds it. -/
inductive LuaNumber where
  | finite (value : Nat)
  | infinite
deriving DecidableEq, Repr

/-- The distance of the doubles around the number. -/
def doubleUnit (number : Nat) : Nat := 2 ^ (number.log2 - 52)

/-- The number divided, to the nearest and in the middle to the even one. -/
def divideNearest (number unit : Nat) : Nat :=
  let quotient := number / unit
  let double := 2 * (number % unit)
  if double < unit ∨ double = unit ∧ quotient % 2 = 0 then quotient else quotient + 1

/-- The double nearest to the number. -/
def toDouble (number : Nat) : LuaNumber :=
  let rounded := divideNearest number (doubleUnit number) * doubleUnit number
  if rounded.log2 < 1024 then .finite rounded else .infinite

/-- `tonumber` of decimal digits. -/
def tonumber (text : List UInt8) : Option LuaNumber := (readNumeral 10 text).map toDouble

/-- A double is the number itself: it has no more than 53 binary digits before its zeros, and no
more than 1024 in all. -/
def isDouble (number : Nat) : Prop := doubleUnit number ∣ number ∧ number.log2 < 1024

instance (number : Nat) : Decidable (isDouble number) :=
  inferInstanceAs (Decidable (doubleUnit number ∣ number ∧ number.log2 < 1024))

/-- The unit of a double is positive. -/
theorem doubleUnit_pos (number : Nat) : 0 < doubleUnit number := Nat.two_pow_pos _

/-- A multiple of the unit is divided exactly. -/
theorem divideNearest_of_dvd {number unit : Nat} (divides : unit ∣ number) (proper : 0 < unit) :
    divideNearest number unit = number / unit := by
  unfold divideNearest
  rw [Nat.mod_eq_zero_of_dvd divides]
  exact if_pos (.inl proper)

/-- A number is its own double exactly when it is one. -/
theorem toDouble_eq_finite_iff {number : Nat} :
    toDouble number = .finite number ↔ isDouble number := by
  unfold toDouble isDouble
  constructor
  · intro same
    dsimp only at same
    split at same
    · next small =>
        rw [LuaNumber.finite.injEq] at same
        have multiple := same.symm.trans (Nat.mul_comm _ _)
        rw [same] at small
        exact ⟨⟨_, multiple⟩, small⟩
    · cases same
  · rintro ⟨divides, small⟩
    have exact : divideNearest number (doubleUnit number) * doubleUnit number = number := by
      rw [divideNearest_of_dvd divides (doubleUnit_pos number), Nat.div_mul_cancel divides]
    rw [exact, if_pos small]

/-- Every number of at most 53 binary digits is a double. -/
theorem isDouble_of_lt {number : Nat} (small : number < 0x20000000000000) : isDouble number := by
  have digits : number.log2 ≤ 52 := by
    by_cases zero : number = 0
    · rw [zero]
      decide
    · have below : number.log2 < 53 := (Nat.log2_lt zero).mpr small
      omega
  have unit : doubleUnit number = 1 := by
    unfold doubleUnit
    rw [Nat.sub_eq_zero_of_le digits, Nat.pow_zero]
  exact ⟨unit ▸ Nat.one_dvd number, by omega⟩

/-- `tonumber` reads a numeral as the double of its number. -/
theorem tonumber_numeral (number : Nat) :
    tonumber (numeral 10 number) = some (toDouble number) := by
  unfold tonumber
  rw [readNumeral_numeral (by decide) (by decide), Option.map_some]

example : toDouble 0x20000000000001 = .finite 0x20000000000000 := by decide

example : toDouble 0x20000000000003 = .finite 0x20000000000004 := by decide

end Nookobo.Text
