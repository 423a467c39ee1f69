import Nookobo.Text.Words

/-!
# Commenting a command out of an init script

Two of the substitutions of `patch_boot.sh` turn a command with one argument into a comment:
`class_start main` in `init.rc` and `start watchdogd` in `init.hw.rc`. The pattern begins with
white space of any length, so that a match begins where the blank lines in front of the command
do; the mark of the comment is put there, and then the command itself stays as it was.

`remark` says line by line what the substitution does.
-/

namespace Nookobo.Boot

open Nookobo.Text

/-- A command with an argument, and the note to be put behind it. -/
structure Directive where
  command : List Char
  argument : List Char
  note : List Char
  command_visible : ∀ char ∈ command, isBlank char = false
  argument_visible : ∀ char ∈ argument, isBlank char = false
  command_start : ∃ first rest, command = first :: rest ∧ first ≠ '#'
  argument_start : ∃ first rest, argument = first :: rest ∧ first ≠ '#'
  argument_end : ∃ last, argument.getLast? = some last ∧ last.toNat < 128 ∧
    last.isAlphanum = true
  note_comment : ∃ rest, note = ' ' :: '#' :: rest
  note_line : '\n' ∉ note
  apart : ¬ argument <+: command ∧ ¬ command <+: argument

namespace Directive

/-- `^(\s*command\s+argument\b)`. -/
def pattern (directive : Directive) : List Item :=
  [.lineStart, .blanks 0, .literal directive.command, .blanks 1, .literal directive.argument,
    .wordEdge]

/-- What is put in front of a match. -/
def mark : List Char := "    # ".toList

/-- `re.sub(r"^(\s*command\s+argument\b)", r"    # \1 note", ...)`. -/
def commentOut (chars : WordChars) (directive : Directive) (text : List Char) : List Char :=
  substitute chars directive.pattern (fun parts => mark ++ parts.flatten ++ directive.note) text

variable (chars : WordChars) (directive : Directive)

/-! ## The lines -/

/-- The line begins with the argument. -/
def starts (line : List Char) : Bool := beginsWith chars directive.argument line

/-- The first line that is not blank begins with the argument. -/
def argumentAhead : List (List Char) → Bool
  | [] => false
  | line :: more =>
      if isBlankLine line then argumentAhead more else directive.starts chars line

/-- The line has the command, and the argument behind it. -/
def inLine (line : List Char) : Bool :=
  firstWord line == directive.command && directive.starts chars (afterWord line)

/-- The line has the command and nothing else. -/
def bare (line : List Char) : Bool :=
  firstWord line == directive.command && isBlankLine (afterWord line)

/-- The pattern matches where these lines begin. -/
def hitAhead : List (List Char) → Bool
  | [] => false
  | line :: more =>
      if isBlankLine line then hitAhead more
      else
        directive.inLine chars line ||
          directive.bare line && directive.argumentAhead chars more

/-- The note is put behind the argument, at the beginning of the line. -/
def noteAfter (line : List Char) : List Char :=
  line.takeWhile isBlank ++ directive.argument ++ directive.note ++
    (line.dropWhile isBlank).drop directive.argument.length

/-- The note is put behind the command and the argument. -/
def noteInLine (line : List Char) : List Char :=
  line.takeWhile isBlank ++ directive.command ++ directive.noteAfter (afterWord line)

/-- What lies ahead: a new line, the rest of a match whose mark has been put, or the argument. -/
inductive Mode where
  | text
  | opened
  | awaiting
deriving DecidableEq, Repr

/-- A line within a match. -/
def openedLine (line : List Char) : List Char × Mode :=
  if isBlankLine line then (line, .opened)
  else if directive.inLine chars line then (directive.noteInLine line, .text)
  else (line, .awaiting)

/-- One line, with the lines behind it. -/
def remarkLine (line : List Char) (more : List (List Char)) : Mode → List Char × Mode
  | .text =>
      if directive.hitAhead chars (line :: more) then
        (mark ++ (directive.openedLine chars line).1, (directive.openedLine chars line).2)
      else (line, .text)
  | .opened => directive.openedLine chars line
  | .awaiting =>
      if isBlankLine line then (line, .awaiting) else (directive.noteAfter line, .text)

/-- The lines after the substitution. -/
def remark : Mode → List (List Char) → List (List Char)
  | _, [] => []
  | mode, line :: more =>
      (directive.remarkLine chars line more mode).1 ::
        remark (directive.remarkLine chars line more mode).2 more

/-! ## The text -/

variable {chars directive}

/-- A directive has a command. -/
theorem command_ne_nil : directive.command ≠ [] := by
  obtain ⟨first, rest, shape, _⟩ := directive.command_start
  rw [shape]
  exact List.cons_ne_nil _ _

/-- A directive has an argument. -/
theorem argument_ne_nil : directive.argument ≠ [] := by
  obtain ⟨first, rest, shape, _⟩ := directive.argument_start
  rw [shape]
  exact List.cons_ne_nil _ _

/-- The text behind the command at its beginning. -/
def afterCommand (directive : Directive) (text : List Char) : List Char :=
  (text.dropWhile isBlank).drop directive.command.length

/-- The pattern matches where the text begins. -/
def hits (chars : WordChars) (directive : Directive) (text : List Char) : Bool :=
  decide (directive.command <+: text.dropWhile isBlank) &&
    (decide ((directive.afterCommand text).takeWhile isBlank ≠ []) &&
      directive.starts chars (directive.afterCommand text))

/-- The argument ends in a character of a word, so that the pattern can end behind it. -/
theorem isWord_argument (chars : WordChars) (directive : Directive) :
    chars.isWord (directive.argument.getLast argument_ne_nil) = true := by
  obtain ⟨last, ends, low, alphanumeric⟩ := directive.argument_end
  rw [List.getLast?_eq_some_getLast argument_ne_nil, Option.some_inj] at ends
  rw [ends, chars.ascii last low, alphanumeric]
  rfl

/-- The parts of a match are determined: blanks, command, blanks, argument. -/
theorem matchAt_pattern (text : List Char) :
    matchAt chars directive.pattern '\n' text =
      if directive.hits chars text then
        some [[], text.takeWhile isBlank, directive.command,
          (directive.afterCommand text).takeWhile isBlank, directive.argument, []]
      else none := by
  unfold matchAt pattern hits
  rw [parses_lineStart, if_pos rfl, parses_blanks command_ne_nil directive.command_visible,
    if_pos (Nat.zero_le _), parses_literal (List.getLast?_eq_some_getLast command_ne_nil)]
  by_cases begins : directive.command <+: text.dropWhile isBlank
  · rw [if_pos begins, parses_blanks argument_ne_nil directive.argument_visible,
      decide_eq_true begins, Bool.true_and]
    by_cases gap : (directive.afterCommand text).takeWhile isBlank = []
    · have none : ¬ 1 ≤ ((directive.afterCommand text).takeWhile isBlank).length := by
        rw [gap]
        decide
      unfold afterCommand at gap none ⊢
      rw [if_neg none, gap]
      rfl
    · have enough : 1 ≤ ((directive.afterCommand text).takeWhile isBlank).length :=
        List.length_pos_iff.mpr gap
      rw [decide_eq_true gap, Bool.true_and]
      unfold afterCommand Directive.starts beginsWith at *
      rw [if_pos enough, parses_word (List.getLast?_eq_some_getLast argument_ne_nil)
        (isWord_argument chars directive)]
      split <;> rfl
  · rw [if_neg begins, decide_eq_false begins]
    rfl

/-- The rest of the text from the argument on. -/
def argumentText (chars : WordChars) (directive : Directive) (text : List Char) : List Char :=
  text.takeWhile isBlank ++ directive.argument ++ directive.note ++
    substituteFrom chars directive.pattern
      (fun parts => mark ++ parts.flatten ++ directive.note) 0
      (directive.argument.getLast argument_ne_nil)
      ((text.dropWhile isBlank).drop directive.argument.length)

/-- The rest of the text from the command on. -/
def openedText (chars : WordChars) (directive : Directive) (text : List Char) : List Char :=
  text.takeWhile isBlank ++ directive.command ++
    directive.argumentText chars (directive.afterCommand text)

/-- A text that begins with the argument, taken apart. -/
theorem eq_of_starts {text : List Char} (starts : directive.starts chars text = true) :
    text = text.takeWhile isBlank ++
      (directive.argument ++ (text.dropWhile isBlank).drop directive.argument.length) := by
  obtain ⟨tail, split⟩ := prefix_of_begins starts
  rw [← split, List.drop_left, split, List.takeWhile_append_dropWhile]

/-- A text that begins with the command, taken apart. -/
theorem eq_of_command {text : List Char}
    (begins : directive.command <+: text.dropWhile isBlank) :
    text = text.takeWhile isBlank ++ (directive.command ++ directive.afterCommand text) := by
  obtain ⟨tail, split⟩ := begins
  unfold afterCommand
  rw [← split, List.drop_left, split, List.takeWhile_append_dropWhile]

/-- At a match the mark is put, and the rest is that of an opened match. -/
theorem commentOut_of_hits {text : List Char} (hit : directive.hits chars text = true) :
    directive.commentOut chars text = mark ++ directive.openedText chars text := by
  have found : matchAt chars directive.pattern '\n' text = _ := matchAt_pattern text
  rw [hit, if_pos rfl] at found
  unfold hits at hit
  rw [Bool.and_eq_true, Bool.and_eq_true, decide_eq_true_eq] at hit
  obtain ⟨begins, _, starts⟩ := hit
  have whole : text = List.flatten [[], text.takeWhile isBlank, directive.command,
      (directive.afterCommand text).takeWhile isBlank, directive.argument, []] ++
        ((directive.afterCommand text).dropWhile isBlank).drop directive.argument.length := by
    conv_lhs => rw [eq_of_command begins, eq_of_starts starts]
    simp only [List.flatten_cons, List.flatten_nil, List.nil_append, List.append_nil,
      List.append_assoc]
  have ends : (List.flatten [[], text.takeWhile isBlank, directive.command,
      (directive.afterCommand text).takeWhile isBlank, directive.argument, []]).getLast? =
        some (directive.argument.getLast argument_ne_nil) := by
    simp only [List.flatten_cons, List.flatten_nil, List.nil_append, List.append_nil,
      List.getLast?_append, List.getLast?_eq_some_getLast argument_ne_nil, Option.some_or]
  have replaced : directive.commentOut chars text = _ := substitute_of_match found whole ends
  rw [replaced]
  unfold openedText argumentText
  simp only [List.flatten_cons, List.flatten_nil, List.nil_append, List.append_nil,
    List.append_assoc]

/-! ## The text line by line -/

section Lines

variable {line : List Char} {more : List (List Char)}

/-- Whether a line that is not blank begins with the argument is settled within it. -/
theorem starts_visible (visible : isBlankLine line = false) {rest : List Char}
    (atBreak : ∀ char ∈ rest.head?, char = '\n') :
    directive.starts chars (line ++ rest) = directive.starts chars line :=
  begins_visible directive.argument_visible visible atBreak

/-- A blank line does not begin with the argument. -/
theorem starts_of_blank (blank : isBlankLine line = true) :
    directive.starts chars line = false :=
  begins_of_blank argument_ne_nil blank

/-- Behind a blank line the next one decides. -/
theorem starts_behindBlank (blank : isBlankLine line = true) (some : more ≠ []) :
    directive.starts chars (line ++ behindLine more) = directive.starts chars (joinLines more) :=
  begins_behindBlank blank some

/-- A text begins with the argument exactly when its first line that is not blank does. -/
theorem starts_joinLines (lines : List (List Char)) :
    directive.starts chars (joinLines lines) = directive.argumentAhead chars lines := by
  induction lines with
  | nil => exact starts_of_blank rfl
  | cons line more ih =>
      rw [joinLines_cons, argumentAhead]
      cases blank : isBlankLine line with
      | true =>
          rw [if_pos rfl]
          by_cases last : more = []
          · rw [last, behindLine_nil, List.append_nil]
            exact starts_of_blank blank
          · rw [starts_behindBlank blank last, ih]
      | false =>
          rw [if_neg Bool.false_ne_true]
          exact starts_visible blank (head_behindLine more)

/-- The line begins with the command as a word of its own. -/
theorem firstWord_eq_command_iff :
    firstWord line = directive.command ↔
      directive.command <+: line.dropWhile isBlank ∧
        ∀ char ∈ (directive.afterCommand line).head?, isBlank char = true := by
  have split : firstWord line ++ afterWord line = line.dropWhile isBlank :=
    List.takeWhile_append_dropWhile
  constructor
  · intro same
    rw [same] at split
    refine ⟨⟨_, split⟩, ?_⟩
    unfold afterCommand
    rw [← split, List.drop_left]
    exact head_afterWord line
  · rintro ⟨⟨rest, begins⟩, apart⟩
    unfold afterCommand at apart
    rw [← begins, List.drop_left] at apart
    exact (firstWord_of_word directive.command_visible apart begins.symm).1

/-- Behind the command of a line stands what follows its first word. -/
theorem afterWord_of_command (same : firstWord line = directive.command) :
    afterWord line = directive.afterCommand line := by
  have split : firstWord line ++ afterWord line = line.dropWhile isBlank :=
    List.takeWhile_append_dropWhile
  unfold afterCommand
  rw [← split, same, List.drop_left]

/-- What stands behind the command of a line that is not blank is settled within it. -/
theorem afterCommand_visible (visible : isBlankLine line = false)
    (begins : directive.command <+: line.dropWhile isBlank) (rest : List Char) :
    directive.afterCommand (line ++ rest) = directive.afterCommand line ++ rest := by
  unfold afterCommand
  rw [dropWhile_visibleLine visible, List.drop_append_of_le_length begins.length_le]

/-- The pattern matches at a line. -/
theorem hits_visible (visible : isBlankLine line = false) :
    directive.hits chars (line ++ behindLine more) =
      (directive.inLine chars line ||
        directive.bare line && directive.argumentAhead chars more) := by
  have atBreak := head_behindLine more
  have oneLine := lineBreak_notMem directive.command_visible
  unfold hits inLine bare
  rw [dropWhile_visibleLine visible, decide_eq_decide.mpr (prefix_line oneLine atBreak)]
  by_cases begins : directive.command <+: line.dropWhile isBlank
  · rw [decide_eq_true begins, Bool.true_and, afterCommand_visible visible begins]
    cases blankRest : isBlankLine (directive.afterCommand line) with
    | true =>
        have apart : ∀ char ∈ (directive.afterCommand line).head?, isBlank char = true :=
          fun char head => List.all_eq_true.mp blankRest char (List.mem_of_mem_head? head)
        have same := firstWord_eq_command_iff.mpr ⟨begins, apart⟩
        rw [same, beq_self_eq_true, afterWord_of_command same, starts_of_blank blankRest,
          blankRest, Bool.and_false, Bool.false_or, Bool.true_and, Bool.true_and]
        by_cases last : more = []
        · rw [last, behindLine_nil, List.append_nil, starts_of_blank blankRest, Bool.and_false]
          rfl
        · have gap : (directive.afterCommand line ++ behindLine more).takeWhile isBlank ≠ [] := by
            rw [takeWhile_blankLine blankRest, behindLine_of_ne_nil last,
              List.takeWhile_cons_of_pos isBlank_lineBreak]
            exact List.append_ne_nil_of_right_ne_nil _ (List.cons_ne_nil _ _)
          rw [decide_eq_true gap, Bool.true_and, starts_behindBlank blankRest last,
            starts_joinLines]
    | false =>
        rw [takeWhile_visibleLine blankRest, starts_visible blankRest atBreak]
        cases rest : directive.afterCommand line with
        | nil =>
            rw [rest] at blankRest
            cases blankRest
        | cons char behind =>
            rw [← rest]
            cases blankChar : isBlank char with
            | true =>
                have apart : ∀ char ∈ (directive.afterCommand line).head?, isBlank char = true := by
                  rw [rest]
                  rintro _ ⟨⟩
                  exact blankChar
                have same := firstWord_eq_command_iff.mpr ⟨begins, apart⟩
                have gap : (directive.afterCommand line).takeWhile isBlank ≠ [] := by
                  rw [rest, List.takeWhile_cons_of_pos blankChar]
                  exact List.cons_ne_nil _ _
                rw [decide_eq_true gap, same, beq_self_eq_true, afterWord_of_command same,
                  blankRest, Bool.and_false, Bool.false_and, Bool.or_false]
            | false =>
                have other : firstWord line ≠ directive.command := by
                  intro same
                  have blank := (firstWord_eq_command_iff.mp same).2 char (by rw [rest]; rfl)
                  rw [blankChar] at blank
                  cases blank
                have noGap : (directive.afterCommand line).takeWhile isBlank = [] := by
                  rw [rest, List.takeWhile_cons_of_neg (by rw [blankChar]; decide)]
                rw [noGap, beq_false_of_ne other]
                rfl
  · have other : firstWord line ≠ directive.command :=
      fun same => begins (firstWord_eq_command_iff.mp same).1
    rw [decide_eq_false begins, beq_false_of_ne other]
    rfl

/-- The pattern does not match within a blank line. -/
theorem hits_of_blank (blank : isBlankLine line = true) : directive.hits chars line = false := by
  obtain ⟨first, rest, shape, _⟩ := directive.command_start
  unfold hits
  rw [List.dropWhile_eq_nil_iff.mpr (List.all_eq_true.mp blank), shape]
  rfl

/-- At a blank line the pattern matches as it does at the next one. -/
theorem hits_behindBlank (blank : isBlankLine line = true) (some : more ≠ []) :
    directive.hits chars (line ++ behindLine more) = directive.hits chars (joinLines more) := by
  have body : (line ++ behindLine more).dropWhile isBlank = (joinLines more).dropWhile isBlank := by
    rw [dropWhile_blankLine blank, behindLine_of_ne_nil some,
      List.dropWhile_cons_of_pos isBlank_lineBreak]
  unfold hits afterCommand
  rw [body]

/-- The pattern matches where the lines begin exactly when they tell so. -/
theorem hits_joinLines (lines : List (List Char)) :
    directive.hits chars (joinLines lines) = directive.hitAhead chars lines := by
  induction lines with
  | nil => exact hits_of_blank rfl
  | cons line more ih =>
      rw [joinLines_cons, hitAhead]
      cases blank : isBlankLine line with
      | true =>
          rw [if_pos rfl]
          by_cases last : more = []
          · rw [last, behindLine_nil, List.append_nil]
            exact hits_of_blank blank
          · rw [hits_behindBlank blank last, ih]
      | false =>
          rw [if_neg Bool.false_ne_true]
          exact hits_visible blank

/-- The text behind a line. -/
def textBehind (chars : WordChars) (directive : Directive) (rest : List Char) : List Char :=
  substituteBehind chars directive.pattern (fun parts => mark ++ parts.flatten ++ directive.note)
    rest

/-- Waiting for the argument, a blank line is passed over. -/
theorem argumentText_behindBlank (blank : isBlankLine line = true) (some : more ≠ []) :
    directive.argumentText chars (line ++ behindLine more) =
      line ++ '\n' :: directive.argumentText chars (joinLines more) := by
  unfold argumentText
  rw [takeWhile_blankLine blank, dropWhile_blankLine blank, behindLine_of_ne_nil some,
    List.takeWhile_cons_of_pos isBlank_lineBreak, List.dropWhile_cons_of_pos isBlank_lineBreak]
  simp only [List.append_assoc, List.cons_append]

/-- The line with the argument takes the note, and the text goes on behind it. -/
theorem argumentText_visible (visible : isBlankLine line = false)
    (starts : directive.starts chars line = true) (proper : '\n' ∉ line) (rest : List Char) :
    directive.argumentText chars (line ++ rest) =
      directive.noteAfter line ++ directive.textBehind chars rest := by
  have fits : directive.argument.length ≤ (line.dropWhile isBlank).length :=
    (prefix_of_begins starts).length_le
  have tail : '\n' ∉ (line.dropWhile isBlank).drop directive.argument.length :=
    fun member => proper ((List.dropWhile_sublist _).subset (List.mem_of_mem_drop member))
  have inside : directive.argument.getLast argument_ne_nil ≠ '\n' := by
    intro same
    exact lineBreak_notMem directive.argument_visible (same ▸ List.getLast_mem argument_ne_nil)
  unfold argumentText noteAfter textBehind
  rw [takeWhile_visibleLine visible, dropWhile_visibleLine visible,
    List.drop_append_of_le_length fits, pattern, substituteFrom_inside tail inside,
    ← List.append_assoc]

/-- Within a match, a blank line is passed over. -/
theorem openedText_behindBlank (blank : isBlankLine line = true) (some : more ≠ []) :
    directive.openedText chars (line ++ behindLine more) =
      line ++ '\n' :: directive.openedText chars (joinLines more) := by
  unfold openedText afterCommand
  rw [takeWhile_blankLine blank, dropWhile_blankLine blank, behindLine_of_ne_nil some,
    List.takeWhile_cons_of_pos isBlank_lineBreak, List.dropWhile_cons_of_pos isBlank_lineBreak]
  simp only [List.append_assoc, List.cons_append]

/-- Within a match, the line with the command is followed by the wait for the argument. -/
theorem openedText_visible (visible : isBlankLine line = false)
    (same : firstWord line = directive.command) (rest : List Char) :
    directive.openedText chars (line ++ rest) =
      line.takeWhile isBlank ++ directive.command ++
        directive.argumentText chars (afterWord line ++ rest) := by
  unfold openedText
  rw [takeWhile_visibleLine visible,
    afterCommand_visible visible (firstWord_eq_command_iff.mp same).1, afterWord_of_command same]

/-- What it is for a line to have command and argument. -/
theorem inLine_iff :
    directive.inLine chars line = true ↔
      firstWord line = directive.command ∧ directive.starts chars (afterWord line) = true := by
  unfold inLine
  rw [Bool.and_eq_true, beq_iff_eq]

/-- What it is for a line to have the command alone. -/
theorem bare_iff :
    directive.bare line = true ↔
      firstWord line = directive.command ∧ isBlankLine (afterWord line) = true := by
  unfold bare
  rw [Bool.and_eq_true, beq_iff_eq]

/-- A line that begins with the argument is not blank. -/
theorem visible_of_starts (starts : directive.starts chars line = true) :
    isBlankLine line = false :=
  visible_of_begins argument_ne_nil starts

/-- What follows the first word of a line has no line break. -/
theorem lineBreak_notMem_afterWord (proper : '\n' ∉ line) : '\n' ∉ afterWord line :=
  fun member =>
    proper ((List.dropWhile_sublist _).subset ((List.dropWhile_sublist _).subset member))

/-- A line whose first word is the command, put together again. -/
theorem eq_of_firstWord (same : firstWord line = directive.command) :
    line.takeWhile isBlank ++ directive.command ++ afterWord line = line := by
  rw [afterWord_of_command same, List.append_assoc]
  exact (eq_of_command (firstWord_eq_command_iff.mp same).1).symm

/-- An argument lies ahead only where there are lines. -/
theorem argumentAhead_ne_nil (ahead : directive.argumentAhead chars more = true) : more ≠ [] := by
  rintro rfl
  cases ahead

/-- A match lies ahead only where there are lines. -/
theorem hitAhead_ne_nil (ahead : directive.hitAhead chars more = true) : more ≠ [] := by
  rintro rfl
  cases ahead

/-- A line put before the marked lines of a text. -/
theorem joinLines_remark {mode : Mode} (some : more ≠ []) (line : List Char) :
    line ++ '\n' :: joinLines (directive.remark chars mode more) =
      joinLines (line :: directive.remark chars mode more) := by
  obtain ⟨next, others, rfl⟩ := List.exists_cons_of_ne_nil some
  rw [joinLines_cons line, remark, behindLine_of_ne_nil (List.cons_ne_nil _ _)]

/-- A line, and what the substitution makes of the lines behind it. -/
theorem textBehind_joinLines
    (next : directive.commentOut chars (joinLines more) =
      joinLines (directive.remark chars .text more)) (line : List Char) :
    line ++ directive.textBehind chars (behindLine more) =
      joinLines (line :: directive.remark chars .text more) := by
  by_cases last : more = []
  · rw [last, behindLine_nil, remark, joinLines_cons]
    rfl
  · rw [← joinLines_remark last, ← next, behindLine_of_ne_nil last]
    rfl

end Lines

/-- What the substitution does to a text is what `remark` does to its lines. -/
theorem remark_joinLines {lines : List (List Char)} (proper : Proper lines) :
    directive.commentOut chars (joinLines lines) =
        joinLines (directive.remark chars .text lines) ∧
      (directive.hitAhead chars lines = true →
        directive.openedText chars (joinLines lines) =
          joinLines (directive.remark chars .opened lines)) ∧
      (directive.argumentAhead chars lines = true →
        directive.argumentText chars (joinLines lines) =
          joinLines (directive.remark chars .awaiting lines)) := by
  induction lines with
  | nil =>
      refine ⟨rfl, ?_, ?_⟩
      · rintro ⟨⟩
      · rintro ⟨⟩
  | cons line more ih =>
      obtain ⟨here, later⟩ := List.forall_mem_cons.mp proper
      obtain ⟨nextText, nextOpened, nextArgument⟩ := ih later
      have opened : directive.hitAhead chars (line :: more) = true →
          directive.openedText chars (joinLines (line :: more)) =
            joinLines (directive.remark chars .opened (line :: more)) := by
        intro ahead
        rw [joinLines_cons, remark, remarkLine, openedLine]
        rw [hitAhead] at ahead
        cases blank : isBlankLine line with
        | true =>
            rw [blank, if_pos rfl] at ahead
            have some := hitAhead_ne_nil ahead
            rw [if_pos rfl, openedText_behindBlank blank some, nextOpened ahead,
              joinLines_remark some]
        | false =>
            rw [blank, if_neg Bool.false_ne_true] at ahead
            rw [if_neg Bool.false_ne_true]
            cases within : directive.inLine chars line with
            | true =>
                obtain ⟨same, starts⟩ := inLine_iff.mp within
                have visible := visible_of_starts starts
                rw [openedText_visible blank same,
                  argumentText_visible visible starts (lineBreak_notMem_afterWord here),
                  ← List.append_assoc]
                exact textBehind_joinLines nextText _
            | false =>
                rw [within, Bool.false_or, Bool.and_eq_true] at ahead
                obtain ⟨isBare, argument⟩ := ahead
                obtain ⟨same, blankRest⟩ := bare_iff.mp isBare
                have some := argumentAhead_ne_nil argument
                rw [openedText_visible blank same, argumentText_behindBlank blankRest some,
                  nextArgument argument, ← List.append_assoc, eq_of_firstWord same]
                exact joinLines_remark some line
      refine ⟨?_, opened, ?_⟩
      · rw [remark, remarkLine]
        cases ahead : directive.hitAhead chars (line :: more) with
        | true =>
            have hit : directive.hits chars (joinLines (line :: more)) = true := by
              rw [hits_joinLines, ahead]
            rw [if_pos rfl, commentOut_of_hits hit, opened ahead, joinLines_cons, remark,
              remarkLine, joinLines_cons, List.append_assoc]
        | false =>
            have noMatch :
                matchAt chars directive.pattern '\n' (line ++ behindLine more) = none := by
              rw [matchAt_pattern, ← joinLines_cons, hits_joinLines, ahead]
              rfl
            have kept : directive.commentOut chars (line ++ behindLine more) =
                line ++ directive.textBehind chars (behindLine more) :=
              substitute_of_none here (head_behindLine more) noMatch
            rw [if_neg Bool.false_ne_true, joinLines_cons, kept]
            exact textBehind_joinLines nextText line
      · intro ahead
        rw [joinLines_cons, remark, remarkLine]
        rw [argumentAhead] at ahead
        cases blank : isBlankLine line with
        | true =>
            rw [blank, if_pos rfl] at ahead
            have some := argumentAhead_ne_nil ahead
            rw [if_pos rfl, argumentText_behindBlank blank some, nextArgument ahead,
              joinLines_remark some]
        | false =>
            rw [blank, if_neg Bool.false_ne_true] at ahead
            rw [if_neg Bool.false_ne_true, argumentText_visible blank ahead here]
            exact textBehind_joinLines nextText _

/-! ### The lines stay lines -/

/-- The note puts no line break into a line. -/
theorem proper_noteAfter {line : List Char} (proper : '\n' ∉ line) :
    '\n' ∉ directive.noteAfter line := by
  unfold noteAfter
  simp only [List.mem_append, not_or]
  exact ⟨⟨⟨fun member => proper ((List.takeWhile_sublist _).subset member),
    lineBreak_notMem directive.argument_visible⟩, directive.note_line⟩,
    fun member => proper ((List.dropWhile_sublist _).subset (List.mem_of_mem_drop member))⟩

/-- A line within a match gets no line break. -/
theorem proper_openedLine {line : List Char} (proper : '\n' ∉ line) :
    '\n' ∉ (directive.openedLine chars line).1 := by
  unfold openedLine
  split
  · exact proper
  · split
    · unfold noteInLine
      simp only [List.mem_append, not_or]
      exact ⟨⟨fun member => proper ((List.takeWhile_sublist _).subset member),
        lineBreak_notMem directive.command_visible⟩,
        proper_noteAfter (lineBreak_notMem_afterWord proper)⟩
    · exact proper

/-- The substitution puts no line break into any line. -/
theorem proper_remark {lines : List (List Char)} (proper : Proper lines) (mode : Mode) :
    Proper (directive.remark chars mode lines) := by
  induction lines generalizing mode with
  | nil => exact proper
  | cons line more ih =>
      obtain ⟨here, later⟩ := List.forall_mem_cons.mp proper
      rw [remark]
      refine List.forall_mem_cons.mpr ⟨?_, ih later _⟩
      cases mode with
      | text =>
          unfold remarkLine
          dsimp only
          split
          · rw [List.mem_append, not_or]
            exact ⟨by decide, proper_openedLine here⟩
          · exact here
      | opened => exact proper_openedLine here
      | awaiting =>
          unfold remarkLine
          dsimp only
          split
          · exact here
          · exact proper_noteAfter here

/-- The substitution works line by line, in the mode the lines before have left. -/
theorem linesOf_commentOut (text : List Char) :
    linesOf (directive.commentOut chars text) = directive.remark chars .text (linesOf text) := by
  have proper := proper_linesOf text
  have some : directive.remark chars .text (linesOf text) ≠ [] := by
    cases lines : linesOf text with
    | nil => exact absurd lines (linesOf_ne_nil text)
    | cons line more => exact List.cons_ne_nil _ _
  have joined : directive.commentOut chars _ = _ := (remark_joinLines proper).1
  rw [joinLines_linesOf] at joined
  rw [joined, linesOf_joinLines (proper_remark proper _) some]

end Directive

end Nookobo.Boot
