import Mathlib.Data.List.TakeWhile
import Nookobo.Text.Numerals

/-!
# Files of lines

What the tools that shell scripts put together do to a text: `wc -l`, `head`, `tail`, `cut`,
`awk '{print $n}'`, `$(...)` and the comparisons of `test`. `unlines` is the text of a list of
lines, and the rules say that each of the tools does to it what its name says about lines.
-/

namespace Nookobo.Text

/-- The text that consists of the lines. -/
def unlines (lines : List (List UInt8)) : List UInt8 := lines.flatMap (· ++ [lineFeed])

/-- `wc -l`. -/
def countLines (text : List UInt8) : Nat := text.count lineFeed

/-- `head -n`. -/
def headLines : Nat → List UInt8 → List UInt8
  | 0, _ => []
  | _ + 1, [] => []
  | count + 1, byte :: rest =>
      byte :: headLines (if byte = lineFeed then count else count + 1) rest

/-- What is behind the first lines. -/
def dropLines : Nat → List UInt8 → List UInt8
  | 0, text => text
  | _ + 1, [] => []
  | count + 1, byte :: rest => dropLines (if byte = lineFeed then count else count + 1) rest

/-- `tail -n`: a line at the end that was not ended counts. -/
def tailLines (count : Nat) (text : List UInt8) : List UInt8 :=
  let total := countLines text + if text.getLast?.getD lineFeed = lineFeed then 0 else 1
  dropLines (total - count) text

/-- `$(...)` takes the line breaks at the end away. -/
def substituted (output : List UInt8) : List UInt8 :=
  (output.reverse.dropWhile (· = lineFeed)).reverse

/-- `cut -d delimiter -f number` of a line: all of it where there is no delimiter. -/
def cutField (delimiter : UInt8) (number : Nat) (line : List UInt8) : List UInt8 :=
  if delimiter ∈ line then (line.splitOn delimiter).getD (number - 1) [] else line

/-- The parts of a line between white space. -/
def blankFields (line : List UInt8) : List (List UInt8) :=
  (line.splitOnP isSpace).filter (· ≠ [])

/-- The lines of a text, ended or not. -/
def lines (text : List UInt8) : List (List UInt8) :=
  if text.getLast?.getD lineFeed = lineFeed then (text.splitOn lineFeed).dropLast
  else text.splitOn lineFeed

/-- `awk '{print $number}'`. -/
def awkPrint (number : Nat) (text : List UInt8) : List UInt8 :=
  unlines ((lines text).map fun line => (blankFields line).getD (number - 1) [])

/-- The number that `test` compares, if the text is one. -/
def testNumber (text : List UInt8) : Option Int :=
  let body := text.dropWhile isSpace
  let negative := body.head? == some 45
  let unsigned := if negative || body.head? == some 43 then body.drop 1 else body
  let digits := unsigned.takeWhile isDigit
  if (unsigned.drop digits.length).all isSpace then
    (readNumeral 10 digits).map fun magnitude : Nat =>
      if negative then -(magnitude : Int) else magnitude
  else none

/-- `[ text -gt bound ]`; a text that is no number is an error, and not greater. -/
def testGreater (text : List UInt8) (bound : Int) : Bool :=
  match testNumber text with
  | some number => bound < number
  | none => false

/-! ## The rules -/

/-- No lines make an empty text. -/
@[simp] theorem unlines_nil : unlines [] = [] := rfl

/-- The first line comes before the rest, with its line feed. -/
theorem unlines_cons (line : List UInt8) (rest : List (List UInt8)) :
    unlines (line :: rest) = line ++ lineFeed :: unlines rest := by
  unfold unlines
  rw [List.flatMap_cons, List.append_assoc]
  rfl

/-- Two lists of lines make the one text behind the other. -/
@[simp] theorem unlines_append (first second : List (List UInt8)) :
    unlines (first ++ second) = unlines first ++ unlines second :=
  List.flatMap_append

/-- One line makes a text with one line feed. -/
theorem unlines_singleton (line : List UInt8) : unlines [line] = line ++ [lineFeed] :=
  unlines_cons line []

section Lines

variable {all : List (List UInt8)}

/-- `wc -l` counts the lines a text was made from. -/
theorem countLines_unlines (proper : ∀ line ∈ all, lineFeed ∉ line) :
    countLines (unlines all) = all.length := by
  induction all with
  | nil => rfl
  | cons line rest ih =>
      obtain ⟨first, later⟩ := List.forall_mem_cons.mp proper
      have ahead := ih later
      unfold countLines at ahead ⊢
      rw [unlines_cons, List.count_append, List.count_cons_self, List.count_eq_zero.mpr first,
        ahead, List.length_cons]
      omega

/-- `head` takes the first line and goes on. -/
theorem headLines_line {line : List UInt8} (proper : lineFeed ∉ line) (count : Nat)
    (rest : List UInt8) :
    headLines (count + 1) (line ++ lineFeed :: rest) =
      line ++ lineFeed :: headLines count rest := by
  induction line with
  | nil => rw [List.nil_append, headLines, if_pos rfl]; rfl
  | cons byte line ih =>
      rw [List.mem_cons, not_or] at proper
      rw [List.cons_append, headLines, if_neg (Ne.symm proper.1), ih proper.2]
      rfl

/-- Leaving out lines begins with the first one. -/
theorem dropLines_line {line : List UInt8} (proper : lineFeed ∉ line) (count : Nat)
    (rest : List UInt8) :
    dropLines (count + 1) (line ++ lineFeed :: rest) = dropLines count rest := by
  induction line with
  | nil => rw [List.nil_append, dropLines, if_pos rfl]
  | cons byte line ih =>
      rw [List.mem_cons, not_or] at proper
      rw [List.cons_append, dropLines, if_neg (Ne.symm proper.1), ih proper.2]

/-- `head` takes the first lines. -/
theorem headLines_unlines (proper : ∀ line ∈ all, lineFeed ∉ line) (count : Nat) :
    headLines count (unlines all) = unlines (all.take count) := by
  induction all generalizing count with
  | nil => cases count <;> rw [unlines_nil, headLines, List.take_nil, unlines_nil]
  | cons line rest ih =>
      obtain ⟨first, later⟩ := List.forall_mem_cons.mp proper
      cases count with
      | zero => rw [headLines, List.take_zero, unlines_nil]
      | succ count =>
          rw [unlines_cons, headLines_line first, ih later, List.take_succ_cons, unlines_cons]

/-- Leaving out lines leaves the others. -/
theorem dropLines_unlines (proper : ∀ line ∈ all, lineFeed ∉ line) (count : Nat) :
    dropLines count (unlines all) = unlines (all.drop count) := by
  induction all generalizing count with
  | nil => cases count <;> rw [unlines_nil, dropLines, List.drop_nil, unlines_nil]
  | cons line rest ih =>
      obtain ⟨first, later⟩ := List.forall_mem_cons.mp proper
      cases count with
      | zero => rw [dropLines, List.drop_zero]
      | succ count => rw [unlines_cons, dropLines_line first, ih later, List.drop_succ_cons]

/-- A text of lines is empty or ends with a line break. -/
theorem getLast_unlines (all : List (List UInt8)) :
    (unlines all).getLast?.getD lineFeed = lineFeed := by
  rcases List.eq_nil_or_concat all with rfl | ⟨front, line, rfl⟩
  · rfl
  · rw [List.concat_eq_append, unlines_append, unlines_singleton, ← List.append_assoc,
      List.getLast?_concat]
    rfl

/-- `tail` takes the last lines. -/
theorem tailLines_unlines (proper : ∀ line ∈ all, lineFeed ∉ line) (count : Nat) :
    tailLines count (unlines all) = unlines (all.drop (all.length - count)) := by
  unfold tailLines
  rw [if_pos (getLast_unlines all), countLines_unlines proper, Nat.add_zero,
    dropLines_unlines proper]

/-- A text made from lines has these lines. -/
theorem lines_unlines (proper : ∀ line ∈ all, lineFeed ∉ line) : lines (unlines all) = all := by
  have split : (unlines all).splitOn lineFeed = all ++ [[]] := by
    induction all with
    | nil => rfl
    | cons line rest ih =>
        obtain ⟨first, later⟩ := List.forall_mem_cons.mp proper
        rw [unlines_cons, List.splitOn_append_cons_self_of_not_mem first, ih later]
        rfl
  unfold lines
  rw [if_pos (getLast_unlines all), split, List.dropLast_concat]

/-- A line that a command prints is what `$(...)` gives. -/
theorem substituted_line {line : List UInt8} (proper : lineFeed ∉ line) :
    substituted (line ++ [lineFeed]) = line := by
  have kept : line.reverse.dropWhile (· = lineFeed) = line.reverse := by
    cases backwards : line.reverse with
    | nil => rfl
    | cons last front =>
        have member : last ∈ line.reverse := backwards ▸ List.mem_cons_self
        refine List.dropWhile_cons_of_neg fun ends => proper ?_
        rw [← of_decide_eq_true ends]
        exact List.mem_reverse.mp member
  unfold substituted
  rw [List.reverse_append, List.reverse_singleton, List.singleton_append,
    List.dropWhile_cons_of_pos (by rfl), kept, List.reverse_reverse]

/-- A numeral has no white space. -/
theorem isSpace_numeral (number : Nat) : ∀ byte ∈ numeral 10 number, isSpace byte = false :=
  fun byte member => isSpace_of_isDigit (isDigit_numeral number byte member)

/-- `[` reads a numeral as its number. -/
theorem testNumber_numeral (number : Nat) :
    testNumber (numeral 10 number) = some (number : Int) := by
  have digits := isDigit_numeral number
  have blanks := isSpace_numeral number
  have reads : readNumeral 10 (numeral 10 number) = some number :=
    readNumeral_numeral (by decide) (by decide) number
  unfold testNumber
  cases shape : numeral 10 number with
  | nil => exact absurd shape (numeral_ne_nil 10 number)
  | cons first rest =>
      rw [shape] at digits blanks reads
      have word : isSpace first = false := blanks first List.mem_cons_self
      have digit := digits first List.mem_cons_self
      have minus : (some first == some 45) = false := by
        rw [beq_eq_false_iff_ne]
        rintro ⟨⟩
        cases digit
      have plus : (some first == some 43) = false := by
        rw [beq_eq_false_iff_ne]
        rintro ⟨⟩
        cases digit
      have taken : (first :: rest).takeWhile isDigit = first :: rest :=
        List.takeWhile_eq_self_iff.mpr digits
      simp only [List.dropWhile_cons_of_neg (Bool.eq_false_iff.mp word), List.head?_cons, minus,
        plus, Bool.or_self, Bool.false_eq_true, if_false, taken, List.drop_length, List.all_nil,
        if_true, reads, Option.map_some]

/-- `-gt 0` tells of a numeral whether its number is positive. -/
theorem testGreater_numeral (number : Nat) :
    testGreater (numeral 10 number) 0 = decide (0 < number) := by
  unfold testGreater
  rw [testNumber_numeral]
  simp

/-- Two words with a blank between them. -/
theorem blankFields_pair {first second : List UInt8} (someFirst : first ≠ [])
    (someSecond : second ≠ []) (wordFirst : ∀ byte ∈ first, isSpace byte = false)
    (wordSecond : ∀ byte ∈ second, isSpace byte = false) :
    blankFields (first ++ 32 :: second) = [first, second] := by
  unfold blankFields
  rw [List.splitOnP_append_cons_of_forall_mem wordFirst 32 (by rfl),
    List.splitOnP_eq_singleton wordSecond, List.filter_cons_of_pos (by simpa using someFirst),
    List.filter_cons_of_pos (by simpa using someSecond), List.filter_nil]

end Lines

end Nookobo.Text
