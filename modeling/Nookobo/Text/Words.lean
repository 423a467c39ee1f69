import Nookobo.Text.Pattern

/-!
# Lines of words

A script that is read line by line, each line a row of words between white space. A word that
begins with `#` makes the rest of its line a comment, so that `activeWords` is what a reader of
the script takes notice of.
-/

namespace Nookobo.Text

/-- A line is a list of characters without a line break. -/
def Proper (lines : List (List Char)) : Prop := ∀ line ∈ lines, '\n' ∉ line

/-- The lines of a text. -/
def linesOf (text : List Char) : List (List Char) := text.splitOn '\n'

/-- The text with these lines. -/
def joinLines (lines : List (List Char)) : List Char := ['\n'].intercalate lines

/-- What follows a line of a text. -/
def behindLine (more : List (List Char)) : List Char :=
  if more = [] then [] else '\n' :: joinLines more

/-- The words of a line. -/
def words (line : List Char) : List (List Char) := (line.splitOnP isBlank).filter (· ≠ [])

/-- The words in front of a comment. -/
def activeWords (line : List Char) : List (List Char) :=
  (words line).takeWhile fun word => word.head? ≠ some '#'

/-- The lines with something to take notice of. -/
def activeLines (lines : List (List Char)) : List (List (List Char)) :=
  (lines.map activeWords).filter (· ≠ [])

/-- Nothing but white space. -/
def isBlankLine (line : List Char) : Bool := line.all isBlank

/-! ## Lines -/

/-- The first line of a text and what follows it. -/
theorem joinLines_cons (line : List Char) (more : List (List Char)) :
    joinLines (line :: more) = line ++ behindLine more := by
  unfold joinLines behindLine
  cases more with
  | nil => rw [List.intercalate_singleton, if_pos rfl, List.append_nil]
  | cons next more =>
      rw [if_neg (List.cons_ne_nil _ _), List.intercalate_cons_cons, List.append_assoc]
      rfl

/-- Nothing follows the last line. -/
@[simp] theorem behindLine_nil : behindLine [] = [] := rfl

/-- What follows any other line is a line break and the lines behind it. -/
theorem behindLine_of_ne_nil {more : List (List Char)} (some : more ≠ []) :
    behindLine more = '\n' :: joinLines more := if_neg some

/-- What follows a line begins with a line break. -/
theorem head_behindLine (more : List (List Char)) :
    ∀ char ∈ (behindLine more).head?, char = '\n' := by
  unfold behindLine
  split
  · rintro _ ⟨⟩
  · rintro _ ⟨⟩
    rfl

/-- A word without a line break that a text begins with is in its first line. -/
theorem prefix_line {word line rest : List Char} (oneLine : '\n' ∉ word)
    (atBreak : ∀ char ∈ rest.head?, char = '\n') : word <+: line ++ rest ↔ word <+: line := by
  constructor
  · intro begins
    by_cases short : word.length ≤ line.length
    · exact List.prefix_of_prefix_length_le begins (List.prefix_append line rest) short
    · obtain ⟨tail, split⟩ := begins
      exfalso
      cases rest with
      | nil =>
          have length := congrArg List.length split
          rw [List.length_append, List.append_nil] at length
          omega
      | cons char rest =>
          have isBreak : char = '\n' := atBreak char rfl
          have member : char ∈ word := by
            have here : (word ++ tail)[line.length]? = some char := by
              rw [split, List.getElem?_append_right (Nat.le_refl _), Nat.sub_self]
              rfl
            rw [List.getElem?_append_left (by omega)] at here
            exact List.mem_of_getElem? here
          exact oneLine (isBreak ▸ member)
  · intro begins
    exact begins.trans (List.prefix_append line rest)

/-- The lines of a joined text are the lines it was joined from. -/
theorem linesOf_joinLines {lines : List (List Char)} (proper : Proper lines) (some : lines ≠ []) :
    linesOf (joinLines lines) = lines := List.splitOn_intercalate '\n' proper some

/-- The lines in front are followed by a break each. -/
theorem joinLines_append (front : List (List Char)) {back : List (List Char)} (some : back ≠ []) :
    joinLines (front ++ back) = front.flatMap (· ++ ['\n']) ++ joinLines back := by
  induction front with
  | nil => rfl
  | cons line more ih =>
      have goesOn : more ++ back ≠ [] := List.append_ne_nil_of_right_ne_nil _ some
      rw [List.cons_append, joinLines_cons, behindLine_of_ne_nil goesOn, ih, List.flatMap_cons,
        List.append_assoc, List.append_assoc]
      rfl

/-- A text is joined from its lines. -/
theorem joinLines_linesOf (text : List Char) : joinLines (linesOf text) = text :=
  List.intercalate_splitOn '\n'

/-- Every text has a line. -/
theorem linesOf_ne_nil (text : List Char) : linesOf text ≠ [] := List.splitOn_ne_nil '\n' text

/-- The lines of a text have no line break in them. -/
theorem proper_linesOf (text : List Char) : Proper (linesOf text) := by
  induction text with
  | nil =>
      intro line member
      rw [List.mem_singleton.mp member]
      exact List.not_mem_nil
  | cons char rest ih =>
      unfold linesOf at ih ⊢
      rw [List.splitOn_cons_eq_if_modifyHead]
      split
      · exact List.forall_mem_cons.mpr ⟨List.not_mem_nil, ih⟩
      · next other =>
          cases lines : rest.splitOn '\n' with
          | nil => exact absurd lines (List.splitOn_ne_nil _ _)
          | cons line more =>
              rw [lines] at ih
              obtain ⟨first, later⟩ := List.forall_mem_cons.mp ih
              refine List.forall_mem_cons.mpr ⟨?_, later⟩
              rw [List.mem_cons, not_or]
              exact ⟨fun same => other (beq_iff_eq.mpr same.symm), first⟩

/-- A line break between two texts parts their lines. -/
theorem linesOf_append (first second : List Char) :
    linesOf (first ++ '\n' :: second) = linesOf first ++ linesOf second :=
  List.splitOn_append_cons_self ..

/-! ## Words -/

/-- The first word of a line. -/
def firstWord (line : List Char) : List Char :=
  (line.dropWhile isBlank).takeWhile fun char => !isBlank char

/-- What is behind the first word. -/
def afterWord (line : List Char) : List Char :=
  (line.dropWhile isBlank).dropWhile fun char => !isBlank char

/-- The line begins with the word, behind white space. -/
def beginsWith (chars : WordChars) (word line : List Char) : Bool :=
  startsWord chars word (line.dropWhile isBlank)

section Words

variable {line word : List Char}

/-- White space in front adds no word. -/
theorem words_blanks {blanks : List Char} (all : ∀ char ∈ blanks, isBlank char = true)
    (rest : List Char) : words (blanks ++ rest) = words rest := by
  induction blanks with
  | nil => rfl
  | cons char blanks ih =>
      obtain ⟨first, later⟩ := List.forall_mem_cons.mp all
      have ahead := ih later
      unfold words at ahead ⊢
      rw [List.cons_append, List.splitOnP_cons_eq_if_modifyHead, if_pos first,
        List.filter_cons_of_neg (by simp)]
      exact ahead

/-- A blank line has no words. -/
theorem words_of_blank (blank : isBlankLine line = true) : words line = [] := by
  have all := words_blanks (List.all_eq_true.mp blank) []
  rw [List.append_nil] at all
  exact all

/-- A word in front of white space or at the end of the line. -/
theorem words_word (some : word ≠ []) (visible : ∀ char ∈ word, isBlank char = false)
    {rest : List Char} (apart : ∀ char ∈ rest.head?, isBlank char = true) :
    words (word ++ rest) = word :: words rest := by
  unfold words
  cases rest with
  | nil =>
      rw [List.append_nil, List.splitOnP_eq_singleton visible,
        List.filter_cons_of_pos (by simpa using some)]
      rfl
  | cons char rest =>
      have blank : isBlank char = true := apart char rfl
      rw [List.splitOnP_append_cons_of_forall_mem visible char blank,
        List.filter_cons_of_pos (by simpa using some), List.splitOnP_cons_eq_if_modifyHead,
        if_pos blank, List.filter_cons_of_neg (by simp)]

/-- The words of a line are those behind its white space. -/
theorem words_dropWhile (line : List Char) : words (line.dropWhile isBlank) = words line := by
  conv_rhs => rw [← List.takeWhile_append_dropWhile (p := isBlank) (l := line)]
  exact (words_blanks (fun _ member => List.mem_takeWhile_imp member) _).symm

/-- A line that is not blank has something behind its white space. -/
theorem dropWhile_ne_nil (visible : isBlankLine line = false) : line.dropWhile isBlank ≠ [] := by
  rw [ne_eq, List.dropWhile_eq_nil_iff]
  intro all
  rw [isBlankLine, List.all_eq_true.mpr all] at visible
  cases visible

/-- Behind the first word stands white space or nothing. -/
theorem head_afterWord (line : List Char) :
    ∀ char ∈ (afterWord line).head?, isBlank char = true := by
  intro char head
  have stops := List.head?_dropWhile_not (fun char => !isBlank char) (line.dropWhile isBlank)
  unfold afterWord at head
  rw [Option.mem_def.mp head] at stops
  simpa using stops

/-- The words of a line one by one. -/
theorem words_of_visible (visible : isBlankLine line = false) :
    words line = firstWord line :: words (afterWord line) := by
  have split : line.dropWhile isBlank = firstWord line ++ afterWord line :=
    List.takeWhile_append_dropWhile.symm
  have some : firstWord line ≠ [] := by
    unfold firstWord
    cases body : line.dropWhile isBlank with
    | nil => exact absurd body (dropWhile_ne_nil visible)
    | cons char rest =>
        have first : isBlank char = false := by
          have head := List.head?_dropWhile_not isBlank line
          rw [body] at head
          simpa using head
        rw [List.takeWhile_cons_of_pos (by simpa using first)]
        exact List.cons_ne_nil _ _
  rw [← words_dropWhile, split]
  refine words_word some (fun char member => ?_) (head_afterWord line)
  simpa using List.mem_takeWhile_imp member

/-- White space at the beginning goes on behind a blank line, and not behind any other. -/
theorem takeWhile_blankLine (blank : isBlankLine line = true) (rest : List Char) :
    (line ++ rest).takeWhile isBlank = line ++ rest.takeWhile isBlank :=
  List.takeWhile_append_of_pos (List.all_eq_true.mp blank)

/-- The white space in front of a text goes on past a blank line. -/
theorem dropWhile_blankLine (blank : isBlankLine line = true) (rest : List Char) :
    (line ++ rest).dropWhile isBlank = rest.dropWhile isBlank :=
  List.dropWhile_append_of_pos (List.all_eq_true.mp blank)

/-- The white space in front of a text ends within a line that is not blank. -/
theorem dropWhile_visibleLine (visible : isBlankLine line = false) (rest : List Char) :
    (line ++ rest).dropWhile isBlank = line.dropWhile isBlank ++ rest := by
  rw [List.dropWhile_append, if_neg]
  rw [List.isEmpty_iff]
  exact dropWhile_ne_nil visible

/-- The white space in front of a text is that of its first line, when that is not blank. -/
theorem takeWhile_visibleLine (visible : isBlankLine line = false) (rest : List Char) :
    (line ++ rest).takeWhile isBlank = line.takeWhile isBlank := by
  rw [List.takeWhile_append, if_neg]
  intro whole
  have split : (line.takeWhile isBlank ++ line.dropWhile isBlank).length = line.length :=
    congrArg List.length List.takeWhile_append_dropWhile
  have some := List.length_pos_iff.mpr (dropWhile_ne_nil visible)
  rw [List.length_append] at split
  omega

/-- A visible word goes on to its end. -/
theorem inWord_of_visible (visible : ∀ char ∈ word, isBlank char = false) :
    ∀ char ∈ word, (!isBlank char) = true := by
  intro char member
  rw [visible char member]
  rfl

/-- Where a line begins with a word and white space, that is its first word. -/
theorem firstWord_of_word (visible : ∀ char ∈ word, isBlank char = false) {rest : List Char}
    (apart : ∀ char ∈ rest.head?, isBlank char = true)
    (begins : line.dropWhile isBlank = word ++ rest) :
    firstWord line = word ∧ afterWord line = rest := by
  have inWord : ∀ char ∈ word, (!isBlank char) = true := inWord_of_visible visible
  unfold firstWord afterWord
  rw [begins, List.takeWhile_append_of_pos inWord, List.dropWhile_append_of_pos inWord]
  cases rest with
  | nil => exact ⟨List.append_nil word, rfl⟩
  | cons char rest =>
      have stops : ¬ (!isBlank char) = true := by
        rw [apart char rfl]
        decide
      rw [List.takeWhile_cons_of_neg (p := fun char => !isBlank char) stops,
        List.dropWhile_cons_of_neg (p := fun char => !isBlank char) stops, List.append_nil]
      exact ⟨rfl, rfl⟩

/-- A comment behind white space. -/
theorem words_comment {blanks : List Char} (all : ∀ char ∈ blanks, isBlank char = true)
    (rest : List Char) :
    ∃ comment more, words (blanks ++ '#' :: rest) = ('#' :: comment) :: more := by
  have visible : isBlankLine ('#' :: rest) = false := by
    unfold isBlankLine
    rw [List.all_cons]
    rfl
  have first : firstWord ('#' :: rest) = '#' :: rest.takeWhile fun char => !isBlank char := by
    unfold firstWord
    rw [List.dropWhile_cons_of_neg (by decide),
      List.takeWhile_cons_of_pos (p := fun char => !isBlank char) (by decide)]
  rw [words_blanks all, words_of_visible visible, first]
  exact ⟨_, _, rfl⟩

/-- A comment has nothing to take notice of. -/
theorem activeWords_comment {blanks : List Char} (all : ∀ char ∈ blanks, isBlank char = true)
    (rest : List Char) : activeWords (blanks ++ '#' :: rest) = [] := by
  obtain ⟨comment, more, begins⟩ := words_comment all rest
  unfold activeWords
  rw [begins, List.takeWhile_cons_of_neg (by simp)]

/-- A line whose first word is no comment mark, up to its comment. -/
theorem activeWords_of_words {more : List (List Char)} (begins : words line = word :: more)
    (noMark : word.head? ≠ some '#') :
    activeWords line = word :: more.takeWhile fun word => word.head? ≠ some '#' := by
  unfold activeWords
  rw [begins, List.takeWhile_cons_of_pos (by simpa using noMark)]

/-- A word in front of a comment. -/
theorem activeWords_word_comment {blanks : List Char} (some : word ≠ [])
    (noMark : word.head? ≠ .some '#') (visible : ∀ char ∈ word, isBlank char = false)
    (gap : blanks ≠ []) (all : ∀ char ∈ blanks, isBlank char = true) (rest : List Char) :
    activeWords (word ++ (blanks ++ '#' :: rest)) = [word] := by
  obtain ⟨comment, more, begins⟩ := words_comment all rest
  obtain ⟨char, blanks, rfl⟩ := List.exists_cons_of_ne_nil gap
  have apart : ∀ next ∈ (char :: blanks ++ '#' :: rest).head?, isBlank next = true := by
    rintro _ ⟨⟩
    exact all char List.mem_cons_self
  rw [activeWords_of_words (words_word some visible apart) noMark, begins,
    List.takeWhile_cons_of_neg (by simp)]

/-- A blank line has nothing to take notice of. -/
theorem activeWords_of_blank (blank : isBlankLine line = true) : activeWords line = [] := by
  unfold activeWords
  rw [words_of_blank blank]
  rfl

/-- A line break is white space. -/
theorem isBlank_lineBreak : isBlank '\n' = true := by decide

/-- A visible word has no line break. -/
theorem lineBreak_notMem (visible : ∀ char ∈ word, isBlank char = false) : '\n' ∉ word := by
  intro member
  have blank := visible _ member
  rw [isBlank_lineBreak] at blank
  cases blank

end Words

/-! ## Words at the beginning -/

section Begins

variable {chars : WordChars} {line word : List Char}

/-- What a line begins with does not depend on what follows the line. -/
theorem begins_visible (visibleWord : ∀ char ∈ word, isBlank char = false)
    (visible : isBlankLine line = false) {rest : List Char}
    (atBreak : ∀ char ∈ rest.head?, char = '\n') :
    beginsWith chars word (line ++ rest) = beginsWith chars word line := by
  unfold beginsWith
  rw [dropWhile_visibleLine visible]
  exact startsWord_line (lineBreak_notMem visibleWord) atBreak

/-- A blank line begins with no word. -/
theorem begins_of_blank (some : word ≠ []) (blank : isBlankLine line = true) :
    beginsWith chars word line = false := by
  obtain ⟨first, rest, rfl⟩ := List.exists_cons_of_ne_nil some
  unfold beginsWith
  rw [List.dropWhile_eq_nil_iff.mpr (List.all_eq_true.mp blank)]
  rfl

/-- A blank line is passed over. -/
theorem begins_behindBlank (blank : isBlankLine line = true) {more : List (List Char)}
    (some : more ≠ []) :
    beginsWith chars word (line ++ behindLine more) = beginsWith chars word (joinLines more) := by
  unfold beginsWith
  rw [dropWhile_blankLine blank, behindLine_of_ne_nil some,
    List.dropWhile_cons_of_pos isBlank_lineBreak]

/-- A line that begins with a word is not blank. -/
theorem visible_of_begins (some : word ≠ []) (starts : beginsWith chars word line = true) :
    isBlankLine line = false := by
  rw [Bool.eq_false_iff]
  intro blank
  rw [begins_of_blank some blank] at starts
  cases starts

/-- A line that begins with a word has it behind its white space. -/
theorem prefix_of_begins (starts : beginsWith chars word line = true) :
    word <+: line.dropWhile isBlank := by
  unfold beginsWith startsWord at starts
  rw [Bool.and_eq_true] at starts
  exact List.isPrefixOf_iff_prefix.mp starts.1

/-- A line begins with its first word. -/
theorem begins_of_firstWord (same : firstWord line = word) : beginsWith chars word line = true := by
  have split : firstWord line ++ afterWord line = line.dropWhile isBlank :=
    List.takeWhile_append_dropWhile
  unfold beginsWith startsWord
  rw [← split, same, List.drop_left, List.isPrefixOf_iff_prefix.mpr (List.prefix_append _ _),
    Bool.true_and, Bool.not_eq_true']
  cases rest : afterWord line with
  | nil => rfl
  | cons char behind => exact chars.blank char (head_afterWord line char (by rw [rest]; rfl))

/-- The first word begins as the line does. -/
theorem prefix_firstWord (visible : ∀ char ∈ word, isBlank char = false)
    (starts : beginsWith chars word line = true) : word <+: firstWord line := by
  obtain ⟨tail, split⟩ := prefix_of_begins starts
  have inWord : ∀ char ∈ word, (!isBlank char) = true := inWord_of_visible visible
  unfold firstWord
  rw [← split, List.takeWhile_append_of_pos inWord]
  exact List.prefix_append _ _

/-- The active words of a line that begins with a word. -/
theorem activeWords_of_begins (some : word ≠ []) (noMark : word.head? ≠ .some '#')
    (visible : ∀ char ∈ word, isBlank char = false) (starts : beginsWith chars word line = true) :
    activeWords line =
        firstWord line :: (words (afterWord line)).takeWhile (fun word => word.head? ≠ .some '#') ∧
      word <+: firstWord line := by
  have inWord := prefix_firstWord visible starts
  have first : (firstWord line).head? = word.head? := by
    obtain ⟨char, rest, rfl⟩ := List.exists_cons_of_ne_nil some
    obtain ⟨behind, split⟩ := inWord
    rw [← split]
    rfl
  exact ⟨activeWords_of_words (words_of_visible (visible_of_begins some starts))
    (first ▸ noMark), inWord⟩

end Begins

/-! ## Searching -/

section Search

variable {chars : WordChars} {items : List Item}

/-- A pattern that is tied to the start of a line is found at the beginning of one of them. -/
theorem search_joinLines {lines : List (List Char)} (proper : Proper lines) (some : lines ≠ [])
    {found : Found}
    (finds : search chars (.lineStart :: items) (joinLines lines) = .some found) :
    ∃ front line back, lines = front ++ line :: back ∧
      found.front = front.flatMap (· ++ ['\n']) ∧
      matchAt chars (.lineStart :: items) '\n' (joinLines (line :: back)) = .some found.parts := by
  induction lines generalizing found with
  | nil => exact absurd rfl some
  | cons line more ih =>
      obtain ⟨here, later⟩ := List.forall_mem_cons.mp proper
      cases start : matchAt chars (.lineStart :: items) '\n' (joinLines (line :: more)) with
      | some parts =>
          unfold search at finds
          rw [searchFrom_of_some start, Option.some_inj] at finds
          subst finds
          exact ⟨[], line, more, rfl, rfl, start⟩
      | none =>
          by_cases last : more = []
          · subst last
            rw [joinLines_cons, behindLine_nil, List.append_nil] at start finds
            rw [search_last_of_none here start] at finds
            cases finds
          · rw [joinLines_cons, behindLine_of_ne_nil last] at start finds
            rw [search_of_none here start, Option.map_eq_some_iff] at finds
            obtain ⟨next, finds, rfl⟩ := finds
            obtain ⟨front, other, back, split, ahead, hit⟩ := ih later last finds
            refine ⟨line :: front, other, back, congrArg (line :: ·) split, ?_, hit⟩
            rw [List.flatMap_cons, ← ahead]
            rfl

end Search

end Nookobo.Text
