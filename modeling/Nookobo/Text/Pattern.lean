import Mathlib.Data.Bool.AllAny
import Mathlib.Data.List.TakeWhile
import Mathlib.Data.List.Basic

/-!
# Regular expressions without alternatives

A pattern is a row of `Item`s: the start of a line, a word edge, a literal, or a run of white
space. White space includes the line break, so that a run of it may reach over several lines.
`parses` lists the ways to match in the order in which a backtracking matcher tries them;
`search` finds the first place where there is one, and `substitute` replaces every match. What
stands in front of the text is a character too: before the first one it is a line break.

The rules are about patterns that are tied to the start of a line. Such a pattern leaves a line
alone unless it matches where the line starts.
-/

namespace Nookobo.Text

/-! ## Characters -/

/-- What `\s` matches. -/
def isBlank (char : Char) : Bool :=
  let code := char.toNat
  (9 ≤ code && code ≤ 13) || (28 ≤ code && code ≤ 32) || code == 0x85 || code == 0xA0 ||
    code == 0x1680 || (0x2000 ≤ code && code ≤ 0x200A) || code == 0x2028 || code == 0x2029 ||
    code == 0x202F || code == 0x205F || code == 0x3000

/-- Which characters count as parts of a word: the letters and digits of all scripts and the
underscore. Only the part of the tables for ASCII is fixed, and that white space is outside. -/
structure WordChars where
  isWord : Char → Bool
  ascii : ∀ char, char.toNat < 128 → isWord char = (char.isAlphanum || char == '_')
  blank : ∀ char, isBlank char = true → isWord char = false

/-- White space is no character of a word. -/
theorem isAlphanum_of_blank {char : Char} (blank : isBlank char = true) :
    (char.isAlphanum || char == '_') = false := by
  unfold isBlank at blank
  simp only [Bool.or_eq_true, Bool.and_eq_true, decide_eq_true_eq, beq_iff_eq] at blank
  have code : char.val.toNat = char.toNat := rfl
  have letters : 'A'.val.toNat = 65 ∧ 'Z'.val.toNat = 90 ∧ 'a'.val.toNat = 97 ∧
      'z'.val.toNat = 122 ∧ '0'.val.toNat = 48 ∧ '9'.val.toNat = 57 := by decide
  rw [Bool.eq_false_iff]
  intro word
  unfold Char.isAlphanum Char.isAlpha Char.isUpper Char.isLower Char.isDigit at word
  simp only [Bool.or_eq_true, Bool.and_eq_true, decide_eq_true_eq, beq_iff_eq, ge_iff_le,
    UInt32.le_iff_toNat_le, code] at word
  rcases word with ((upper | lower) | digit) | underscore
  · omega
  · omega
  · omega
  · subst underscore
    revert blank
    decide

/-- The table that ends with ASCII. -/
def asciiWords : WordChars where
  isWord char := char.isAlphanum || char == '_'
  ascii _ _ := rfl
  blank _ := isAlphanum_of_blank

/-! ## Matching -/

/-- The parts of a pattern. -/
inductive Item where
  | lineStart
  | wordEdge
  | literal (word : List Char)
  | blanks (atLeast : Nat)
deriving DecidableEq, Repr

/-- How much of the text an item can take, behind the character `before`. -/
def Item.lengths (chars : WordChars) (before : Char) (text : List Char) : Item → List Nat
  | .lineStart => if before = '\n' then [0] else []
  | .wordEdge => if chars.isWord before = text.head?.any chars.isWord then [] else [0]
  | .literal word => if word <+: text then [word.length] else []
  | .blanks atLeast =>
      (List.range' atLeast ((text.takeWhile isBlank).length + 1 - atLeast)).reverse

/-- The ways to match: what each item takes. -/
def parses (chars : WordChars) : List Item → Char → List Char → List (List (List Char))
  | [], _, _ => [[]]
  | item :: items, before, text =>
      (item.lengths chars before text).flatMap fun length =>
        (parses chars items ((text.take length).getLastD before) (text.drop length)).map
          (text.take length :: ·)

/-- The match that begins where the text does. -/
def matchAt (chars : WordChars) (items : List Item) (before : Char) (text : List Char) :
    Option (List (List Char)) :=
  (parses chars items before text).head?

/-- A match and what is on either side of it. -/
structure Found where
  front : List Char
  parts : List (List Char)
  back : List Char
deriving DecidableEq, Repr

/-- `re.search`. -/
def searchFrom (chars : WordChars) (items : List Item) : Char → List Char → Option Found
  | before, [] => (matchAt chars items before []).map fun parts => ⟨[], parts, []⟩
  | before, char :: rest =>
      match matchAt chars items before (char :: rest) with
      | some parts => some ⟨[], parts, (char :: rest).drop parts.flatten.length⟩
      | none =>
          (searchFrom chars items char rest).map fun found =>
            { found with front := char :: found.front }

/-- The first match in a text. -/
def search (chars : WordChars) (items : List Item) (text : List Char) : Option Found :=
  searchFrom chars items '\n' text

/-- `re.sub` with `count=1`. -/
def substituteFirst (chars : WordChars) (items : List Item)
    (replacement : List (List Char) → List Char) (text : List Char) : List Char :=
  match search chars items text with
  | some found => found.front ++ replacement found.parts ++ found.back
  | none => text

/-- The text with every match replaced, where `skip` more characters belong to a match. -/
def substituteFrom (chars : WordChars) (items : List Item)
    (replacement : List (List Char) → List Char) : Nat → Char → List Char → List Char
  | _, _, [] => []
  | skip + 1, _, char :: rest => substituteFrom chars items replacement skip char rest
  | 0, before, char :: rest =>
      match matchAt chars items before (char :: rest) with
      | some parts =>
          replacement parts ++
            substituteFrom chars items replacement (parts.flatten.length - 1) char rest
      | none => char :: substituteFrom chars items replacement 0 char rest

/-- `re.sub`, for a pattern that does not match the empty text. -/
def substitute (chars : WordChars) (items : List Item)
    (replacement : List (List Char) → List Char) (text : List Char) : List Char :=
  substituteFrom chars items replacement 0 '\n' text

/-! ## The items one by one -/

section Items

variable {chars : WordChars} {items : List Item} {before : Char} {text : List Char}

/-- A line begins behind a line break only. -/
theorem parses_lineStart :
    parses chars (.lineStart :: items) before text =
      if before = '\n' then (parses chars items before text).map ([] :: ·) else [] := by
  rw [parses, Item.lengths]
  split
  · exact List.flatMap_singleton ..
  · rfl

/-- A literal matches where the text begins with it, and nowhere else. -/
theorem parses_literal {word : List Char} {last : Char} (ends : word.getLast? = some last) :
    parses chars (.literal word :: items) before text =
      if word <+: text then
        (parses chars items last (text.drop word.length)).map (word :: ·)
      else [] := by
  rw [parses, Item.lengths]
  split
  · next begins =>
      have taken : text.take word.length = word := (List.prefix_iff_eq_take.mp begins).symm
      have behind : word.getLastD before = last := by
        rw [List.getLastD_eq_getLast?, ends]
        rfl
      rw [List.flatMap_singleton, taken, behind]
  · rfl

/-- Behind the last character of a word, an edge is where the word ends. -/
theorem parses_wordEdge (inWord : chars.isWord before = true) :
    parses chars [.wordEdge] before text =
      if text.head?.any chars.isWord then [] else [[[]]] := by
  rw [parses, Item.lengths, inWord]
  cases text.head?.any chars.isWord <;> rfl

/-- Short of the end of the white space no word begins. -/
theorem parses_literal_blank {word : List Char} (some : word ≠ [])
    (visible : ∀ char ∈ word, isBlank char = false) {length : Nat}
    (short : length < (text.takeWhile isBlank).length) :
    parses chars (.literal word :: items) before (text.drop length) = [] := by
  rw [parses_literal (List.getLast?_eq_some_getLast some)]
  refine if_neg fun begins => ?_
  have split : text.drop length =
      (text.takeWhile isBlank).drop length ++ text.dropWhile isBlank := by
    rw [← List.drop_append_of_le_length short.le, List.takeWhile_append_dropWhile]
  cases run : (text.takeWhile isBlank).drop length with
  | nil =>
      rw [List.drop_eq_nil_iff] at run
      omega
  | cons blank rest =>
      have isBlankChar : isBlank blank = true :=
        List.mem_takeWhile_imp (List.mem_of_mem_drop (run ▸ List.mem_cons_self))
      obtain ⟨first, word, rfl⟩ := List.exists_cons_of_ne_nil some
      have visibleFirst := visible first List.mem_cons_self
      rw [split, run, List.cons_append, List.cons_prefix_cons] at begins
      rw [begins.1, isBlankChar] at visibleFirst
      cases visibleFirst

/-- In front of a word, a run of white space takes all there is. -/
theorem parses_blanks {atLeast : Nat} {word : List Char} (some : word ≠ [])
    (visible : ∀ char ∈ word, isBlank char = false) :
    parses chars (.blanks atLeast :: .literal word :: items) before text =
      if atLeast ≤ (text.takeWhile isBlank).length then
        (parses chars (.literal word :: items)
          ((text.takeWhile isBlank).getLastD before) (text.dropWhile isBlank)).map
            (text.takeWhile isBlank :: ·)
      else [] := by
  have taken : text.take (text.takeWhile isBlank).length = text.takeWhile isBlank :=
    (List.prefix_iff_eq_take.mp (List.takeWhile_prefix isBlank)).symm
  have dropped : text.drop (text.takeWhile isBlank).length = text.dropWhile isBlank := by
    have behind : (text.takeWhile isBlank ++ text.dropWhile isBlank).drop
        (text.takeWhile isBlank).length = text.dropWhile isBlank := List.drop_left
    rwa [List.takeWhile_append_dropWhile] at behind
  rw [parses, Item.lengths]
  split
  · next enough =>
      have count : (text.takeWhile isBlank).length + 1 - atLeast =
          (text.takeWhile isBlank).length - atLeast + 1 := by omega
      have longest : atLeast + 1 * ((text.takeWhile isBlank).length - atLeast) =
          (text.takeWhile isBlank).length := by omega
      have shorter :
          ((List.range' atLeast ((text.takeWhile isBlank).length - atLeast)).reverse.flatMap
          fun length => (parses chars (.literal word :: items)
            ((text.take length).getLastD before) (text.drop length)).map
              (text.take length :: ·)) = [] := by
        rw [List.flatMap_eq_nil_iff]
        intro length member
        rw [List.mem_reverse, List.mem_range'_1] at member
        rw [parses_literal_blank some visible (by omega)]
        rfl
      rw [count, List.range'_concat, longest, List.reverse_append, List.reverse_singleton,
        List.singleton_append, List.flatMap_cons, shorter, List.append_nil, taken, dropped]
  · next few =>
      rw [show (text.takeWhile isBlank).length + 1 - atLeast = 0 by omega]
      rfl

/-! ## Words -/

/-- The text begins with the word, and the word ends there. -/
def startsWord (chars : WordChars) (word text : List Char) : Bool :=
  word.isPrefixOf text && !(text.drop word.length).head?.any chars.isWord

/-- A word with an edge behind it. -/
theorem parses_word {word : List Char} {last : Char} (ends : word.getLast? = some last)
    (inWord : chars.isWord last = true) :
    parses chars [.literal word, .wordEdge] before text =
      if startsWord chars word text then [[word, []]] else [] := by
  rw [parses_literal ends, parses_wordEdge inWord]
  unfold startsWord
  by_cases begins : word <+: text
  · rw [if_pos begins, List.isPrefixOf_iff_prefix.mpr begins, Bool.true_and]
    cases (text.drop word.length).head?.any chars.isWord <;> rfl
  · have absent : word.isPrefixOf text = false := by
      rw [Bool.eq_false_iff, ne_eq, List.isPrefixOf_iff_prefix]
      exact begins
    rw [if_neg begins, absent]
    rfl

/-- A word without a line break ends with its line at the latest. -/
theorem startsWord_line {word : List Char} (oneLine : '\n' ∉ word) {line rest : List Char}
    (atBreak : ∀ char ∈ rest.head?, char = '\n') :
    startsWord chars word (line ++ rest) = startsWord chars word line := by
  induction word generalizing line with
  | nil =>
      cases line with
      | nil =>
          cases rest with
          | nil => rfl
          | cons char rest =>
              have isBreak : char = '\n' := atBreak char rfl
              have outside : chars.isWord '\n' = false := chars.blank '\n' (by decide)
              subst isBreak
              unfold startsWord
              rw [List.nil_append, List.length_nil, List.drop_zero, List.drop_zero,
                List.head?_cons, Option.any_some, outside]
              rfl
      | cons char line => rfl
  | cons first word ih =>
      rw [List.mem_cons, not_or] at oneLine
      cases line with
      | nil =>
          cases rest with
          | nil => rfl
          | cons char rest =>
              have isBreak : char = '\n' := atBreak char rfl
              subst isBreak
              unfold startsWord
              rw [List.nil_append, List.isPrefixOf_cons_cons, beq_false_of_ne (Ne.symm oneLine.1)]
              rfl
      | cons char line =>
          have ahead : startsWord chars word (line ++ rest) = startsWord chars word line :=
            ih oneLine.2
          unfold startsWord at ahead ⊢
          rw [List.cons_append, List.isPrefixOf_cons_cons, List.isPrefixOf_cons_cons,
            List.length_cons, List.drop_succ_cons, List.drop_succ_cons, Bool.and_assoc,
            Bool.and_assoc, ahead]

end Items

/-! ## Patterns at the start of a line -/

section Anchored

variable {chars : WordChars} {items : List Item} {replacement : List (List Char) → List Char}

/-- A pattern for the beginning of a line matches nowhere else. -/
theorem matchAt_lineStart_of_ne {before : Char} (inside : before ≠ '\n') (text : List Char) :
    matchAt chars (.lineStart :: items) before text = none := by
  unfold matchAt
  rw [parses_lineStart, if_neg inside]
  rfl

/-- Where a line has ended, the text ends or goes on with a line break and the next line. -/
def substituteBehind (chars : WordChars) (items : List Item)
    (replacement : List (List Char) → List Char) : List Char → List Char
  | [] => []
  | char :: rest => char :: substituteFrom chars items replacement 0 char rest

/-- In the middle of a line nothing is replaced. -/
theorem substituteFrom_inside {line : List Char} (proper : '\n' ∉ line) {before : Char}
    (inside : before ≠ '\n') (rest : List Char) :
    substituteFrom chars (.lineStart :: items) replacement 0 before (line ++ rest) =
      line ++ substituteBehind chars (.lineStart :: items) replacement rest := by
  induction line generalizing before with
  | nil =>
      cases rest with
      | nil => rfl
      | cons char rest =>
          rw [List.nil_append, substituteFrom, matchAt_lineStart_of_ne inside]
          rfl
  | cons char line ih =>
      rw [List.mem_cons, not_or] at proper
      rw [List.cons_append, substituteFrom, matchAt_lineStart_of_ne inside]
      exact congrArg (char :: ·) (ih proper.2 (Ne.symm proper.1))

/-- A line at whose start there is no match stays as it is. -/
theorem substitute_of_none {line rest : List Char} (proper : '\n' ∉ line)
    (atBreak : ∀ char ∈ rest.head?, char = '\n')
    (noMatch : matchAt chars (.lineStart :: items) '\n' (line ++ rest) = none) :
    substitute chars (.lineStart :: items) replacement (line ++ rest) =
      line ++ substituteBehind chars (.lineStart :: items) replacement rest := by
  unfold substitute
  cases line with
  | nil =>
      cases rest with
      | nil => rfl
      | cons char rest =>
          rw [List.nil_append] at noMatch ⊢
          rw [substituteFrom, noMatch]
          rfl
  | cons char line =>
      rw [List.mem_cons, not_or] at proper
      rw [List.cons_append] at noMatch ⊢
      rw [substituteFrom, noMatch]
      exact congrArg (char :: ·) (substituteFrom_inside proper.2 (Ne.symm proper.1) rest)

/-- The characters of a match are passed over. -/
theorem substituteFrom_skip (passed rest : List Char) (before : Char) :
    substituteFrom chars items replacement passed.length before (passed ++ rest) =
      substituteFrom chars items replacement 0 (passed.getLastD before) rest := by
  induction passed generalizing before with
  | nil => rfl
  | cons char passed ih =>
      rw [List.length_cons, List.cons_append, substituteFrom, ih, List.getLastD_cons]

/-- Behind a match it goes on where the match ends. -/
theorem substitute_of_match {parts : List (List Char)} {last : Char} {text rest : List Char}
    (found : matchAt chars items '\n' text = some parts) (split : text = parts.flatten ++ rest)
    (ends : parts.flatten.getLast? = some last) :
    substitute chars items replacement text =
      replacement parts ++ substituteFrom chars items replacement 0 last rest := by
  unfold substitute
  cases whole : parts.flatten with
  | nil =>
      rw [whole] at ends
      cases ends
  | cons char passed =>
      have atEnd : passed.getLastD char = last := by
        rw [whole, List.getLast?_cons] at ends
        rw [List.getLastD_eq_getLast?]
        exact Option.some.inj ends
      rw [whole, List.cons_append] at split
      rw [split] at found ⊢
      rw [substituteFrom, found]
      refine congrArg (replacement parts ++ ·) ?_
      rw [whole, List.length_cons, Nat.add_sub_cancel, substituteFrom_skip, atEnd]

/-! ### Searching -/

/-- The same place, with something more in front. -/
def Found.behind (front : List Char) (found : Found) : Found :=
  { found with front := front ++ found.front }

/-- Where there is a match, it is the first one. -/
theorem searchFrom_of_some {text : List Char} {before : Char} {parts : List (List Char)}
    (found : matchAt chars items before text = some parts) :
    searchFrom chars items before text =
      some ⟨[], parts, text.drop parts.flatten.length⟩ := by
  cases text with
  | nil => rw [searchFrom, found, Option.map_some, List.drop_nil]
  | cons char rest => rw [searchFrom, found]

/-- Where there is none, the search goes on one character later. -/
theorem searchFrom_cons_of_none {char : Char} {rest : List Char} {before : Char}
    (noMatch : matchAt chars items before (char :: rest) = none) :
    searchFrom chars items before (char :: rest) =
      (searchFrom chars items char rest).map (Found.behind [char]) := by
  rw [searchFrom, noMatch]
  rfl

/-- A match behind two texts is a match behind both together. -/
theorem map_behind (first second : List Char) (found : Option Found) :
    (found.map (Found.behind second)).map (Found.behind first) =
      found.map (Found.behind (first ++ second)) := by
  cases found with
  | none => rfl
  | some found =>
      refine congrArg some ?_
      unfold Found.behind
      rw [List.append_assoc]

/-- In the middle of a line nothing is found; the search goes on at the next line. -/
theorem searchFrom_inside {line : List Char} (proper : '\n' ∉ line) {before : Char}
    (inside : before ≠ '\n') (rest : List Char) :
    searchFrom chars (.lineStart :: items) before (line ++ '\n' :: rest) =
      (search chars (.lineStart :: items) rest).map (Found.behind (line ++ ['\n'])) := by
  induction line generalizing before with
  | nil => exact searchFrom_cons_of_none (matchAt_lineStart_of_ne inside _)
  | cons char line ih =>
      rw [List.mem_cons, not_or] at proper
      rw [List.cons_append, searchFrom_cons_of_none (matchAt_lineStart_of_ne inside _),
        ih proper.2 (Ne.symm proper.1), map_behind]
      rfl

/-- Within the last line there is no further beginning of a line. -/
theorem searchFrom_last {line : List Char} (proper : '\n' ∉ line) {before : Char}
    (inside : before ≠ '\n') : searchFrom chars (.lineStart :: items) before line = none := by
  induction line generalizing before with
  | nil => rw [searchFrom, matchAt_lineStart_of_ne inside, Option.map_none]
  | cons char line ih =>
      rw [List.mem_cons, not_or] at proper
      rw [searchFrom_cons_of_none (matchAt_lineStart_of_ne inside _),
        ih proper.2 (Ne.symm proper.1), Option.map_none]

/-- A line at whose start there is no match is passed over. -/
theorem search_of_none {line rest : List Char} (proper : '\n' ∉ line)
    (noMatch : matchAt chars (.lineStart :: items) '\n' (line ++ '\n' :: rest) = none) :
    search chars (.lineStart :: items) (line ++ '\n' :: rest) =
      (search chars (.lineStart :: items) rest).map (Found.behind (line ++ ['\n'])) := by
  unfold search
  cases line with
  | nil => exact searchFrom_cons_of_none noMatch
  | cons char line =>
      rw [List.mem_cons, not_or] at proper
      rw [List.cons_append] at noMatch
      rw [List.cons_append, searchFrom_cons_of_none noMatch,
        searchFrom_inside proper.2 (Ne.symm proper.1), map_behind]
      rfl

/-- A last line without a match at its beginning has none. -/
theorem search_last_of_none {line : List Char} (proper : '\n' ∉ line)
    (noMatch : matchAt chars (.lineStart :: items) '\n' line = none) :
    search chars (.lineStart :: items) line = none := by
  unfold search
  cases line with
  | nil => rw [searchFrom, noMatch, Option.map_none]
  | cons char line =>
      rw [List.mem_cons, not_or] at proper
      rw [searchFrom_cons_of_none noMatch, searchFrom_last proper.2 (Ne.symm proper.1),
        Option.map_none]

/-- A match at the beginning is replaced, and what follows stays. -/
theorem substituteFirst_of_some {text : List Char} {parts : List (List Char)}
    (found : matchAt chars items '\n' text = some parts) :
    substituteFirst chars items replacement text =
      replacement parts ++ text.drop parts.flatten.length := by
  unfold substituteFirst search
  rw [searchFrom_of_some found]
  rfl

/-- A line without a match at its beginning stays, and the search goes on behind it. -/
theorem substituteFirst_of_none {line rest : List Char} (proper : '\n' ∉ line)
    (noMatch : matchAt chars (.lineStart :: items) '\n' (line ++ '\n' :: rest) = none) :
    substituteFirst chars (.lineStart :: items) replacement (line ++ '\n' :: rest) =
      line ++ '\n' :: substituteFirst chars (.lineStart :: items) replacement rest := by
  unfold substituteFirst
  rw [search_of_none proper noMatch]
  cases search chars (.lineStart :: items) rest with
  | none => rfl
  | some found =>
      rw [Option.map_some]
      unfold Found.behind
      simp only [List.append_assoc, List.cons_append, List.nil_append]

/-- A last line without a match at its beginning stays. -/
theorem substituteFirst_last {line : List Char} (proper : '\n' ∉ line)
    (noMatch : matchAt chars (.lineStart :: items) '\n' line = none) :
    substituteFirst chars (.lineStart :: items) replacement line = line := by
  unfold substituteFirst
  rw [search_last_of_none proper noMatch]

end Anchored

end Nookobo.Text
