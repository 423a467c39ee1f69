import Nookobo.Boot.CommentOut

/-!
# What commenting a command out leaves of a script

The lines of a script as rows of words, before and after the substitution. The command is gone
and everything else is there exactly when the lines are `Harmless`: the line in front of the
command is not blank, and the argument is a word of its own. After a blank line the mark of the
comment stands in that line, and the command stays active.
-/

namespace Nookobo.Boot

open Nookobo.Text

namespace Directive

variable {chars : WordChars} {directive : Directive}

/-! ## The words -/

/-- The line is the command that has to go. -/
def Dangerous (directive : Directive) (line : List (List Char)) : Prop :=
  [directive.command, directive.argument] <+: line

instance (line : List (List Char)) : Decidable (directive.Dangerous line) :=
  inferInstanceAs (Decidable (_ <+: _))

/-- What should become of a line. -/
def outcome (directive : Directive) (line : List (List Char)) : List (List Char) :=
  if directive.Dangerous line then [] else line

section Words

variable {line : List Char}

/-- The command is not a comment. -/
theorem command_noMark : directive.command.head? ≠ some '#' := by
  obtain ⟨first, rest, shape, visible⟩ := directive.command_start
  rw [shape]
  exact fun same => visible (Option.some.inj same)

/-- The argument is not a comment. -/
theorem argument_noMark : directive.argument.head? ≠ some '#' := by
  obtain ⟨first, rest, shape, visible⟩ := directive.argument_start
  rw [shape]
  exact fun same => visible (Option.some.inj same)

/-- The mark begins with white space. -/
theorem blanks_mark : ∀ char ∈ "    ".toList, isBlank char = true :=
  List.all_eq_true.mp (by decide)

/-- A marked line is a comment. -/
theorem activeWords_mark (line : List Char) : activeWords (mark ++ line) = [] :=
  activeWords_comment blanks_mark (' ' :: line)

/-- The note makes a comment of what follows the argument. -/
theorem activeWords_noteAfter (line : List Char) :
    activeWords (directive.noteAfter line) = [directive.argument] := by
  obtain ⟨text, shape⟩ := directive.note_comment
  have split : directive.noteAfter line = line.takeWhile isBlank ++ (directive.argument ++
      ([' '] ++ '#' :: (text ++ (line.dropWhile isBlank).drop directive.argument.length))) := by
    unfold noteAfter
    rw [shape]
    simp only [List.append_assoc, List.cons_append, List.nil_append]
  have gap : ∀ char ∈ [' '], isBlank char = true := List.all_eq_true.mp (by decide)
  have last := activeWords_word_comment argument_ne_nil argument_noMark
    directive.argument_visible (List.cons_ne_nil _ _) gap
    (text ++ (line.dropWhile isBlank).drop directive.argument.length)
  unfold activeWords at last ⊢
  rw [split, words_blanks fun _ member => List.mem_takeWhile_imp member, last]

/-- The words behind the command are left as they are. -/
theorem activeWords_of_command (same : firstWord line = directive.command) :
    activeWords line = directive.command :: activeWords (afterWord line) := by
  have visible : isBlankLine line = false := by
    rw [Bool.eq_false_iff]
    intro blank
    unfold firstWord at same
    rw [List.dropWhile_eq_nil_iff.mpr (List.all_eq_true.mp blank)] at same
    exact command_ne_nil same.symm
  have begins := words_of_visible visible
  rw [same] at begins
  exact activeWords_of_words begins command_noMark

/-- A line that got the note still has its command, and the note behind its argument. -/
theorem firstWord_noteInLine (within : directive.inLine chars line = true) :
    firstWord (directive.noteInLine line) = directive.command ∧
      afterWord (directive.noteInLine line) = directive.noteAfter (afterWord line) := by
  obtain ⟨same, starts⟩ := inLine_iff.mp within
  have visible := visible_of_starts starts
  have gap : (afterWord line).takeWhile isBlank ≠ [] := by
    cases rest : afterWord line with
    | nil =>
        rw [rest] at visible
        cases visible
    | cons char behind =>
        rw [List.takeWhile_cons_of_pos (head_afterWord line char (by rw [rest]; rfl))]
        exact List.cons_ne_nil _ _
  refine firstWord_of_word directive.command_visible (fun char head => ?_) ?_
  · obtain ⟨first, blanks, split⟩ := List.exists_cons_of_ne_nil gap
    unfold noteAfter at head
    rw [split] at head
    obtain rfl : first = char := Option.some.inj head
    exact List.mem_takeWhile_imp (split ▸ List.mem_cons_self)
  · have allBlank : ∀ char ∈ line.takeWhile isBlank, isBlank char = true :=
      fun _ member => List.mem_takeWhile_imp member
    obtain ⟨first, rest, shape, _⟩ := directive.command_start
    have notBlank : ¬ isBlank first = true := by
      rw [directive.command_visible first (shape ▸ List.mem_cons_self)]
      decide
    unfold noteInLine
    rw [List.append_assoc, List.dropWhile_append_of_pos allBlank, shape, List.cons_append,
      List.dropWhile_cons_of_neg notBlank]

/-- Behind the mark, a line that got the note would be command and argument alone. -/
theorem activeWords_noteInLine (within : directive.inLine chars line = true) :
    activeWords (directive.noteInLine line) = [directive.command, directive.argument] := by
  obtain ⟨first, after⟩ := firstWord_noteInLine within
  rw [activeWords_of_command first, after, activeWords_noteAfter]

/-- A line that has to go is one in which the pattern matches. -/
theorem inLine_of_dangerous (dangerous : directive.Dangerous (activeWords line)) :
    directive.inLine chars line = true := by
  have visible : isBlankLine line = false := by
    rw [Bool.eq_false_iff]
    intro blank
    rw [Dangerous, activeWords_of_blank blank, List.prefix_nil] at dangerous
    cases dangerous
  have begins := words_of_visible visible
  by_cases marked : (firstWord line).head? = some '#'
  · unfold Dangerous activeWords at dangerous
    rw [begins, List.takeWhile_cons_of_neg (by simpa using marked), List.prefix_nil] at dangerous
    cases dangerous
  · rw [Dangerous, activeWords_of_words begins marked, List.cons_prefix_cons] at dangerous
    obtain ⟨same, second⟩ := dangerous
    refine inLine_iff.mpr ⟨same.symm, ?_⟩
    have visibleRest : isBlankLine (afterWord line) = false := by
      rw [Bool.eq_false_iff]
      intro blank
      rw [words_of_blank blank, List.takeWhile_nil, List.prefix_nil] at second
      cases second
    rw [words_of_visible visibleRest, List.takeWhile_cons] at second
    split at second
    · rw [List.cons_prefix_cons] at second
      exact begins_of_firstWord second.1.symm
    · rw [List.prefix_nil] at second
      cases second

/-- A line with the argument in front is none with the command. -/
theorem firstWord_ne_command (starts : directive.starts chars line = true) :
    firstWord line ≠ directive.command := by
  intro same
  have begins := (firstWord_eq_command_iff.mp same).1
  rcases List.prefix_or_prefix_of_prefix (prefix_of_begins starts) begins with
    first | second
  · exact directive.apart.1 first
  · exact directive.apart.2 second

end Words

/-! ## What becomes of the lines -/

section Lines

variable {line : List Char} {more : List (List Char)}

/-- The first line that is not blank. -/
def nextWords : List (List Char) → List (List Char)
  | [] => []
  | line :: more => if isBlankLine line then nextWords more else activeWords line

/-- Where the command stands in one line, the line before is not blank and the argument is a
word of its own. Where the argument is in a later line, the line before is blank, and the
argument is alone. -/
def Harmless (chars : WordChars) (directive : Directive) : Bool → List (List Char) → Prop
  | _, [] => True
  | afterBlank, line :: more =>
      (directive.inLine chars line = true →
        afterBlank = false ∧ directive.Dangerous (activeWords line)) ∧
      (directive.bare line = true → directive.argumentAhead chars more = true →
        afterBlank = true ∧ nextWords more = [directive.argument]) ∧
      Harmless chars directive (isBlankLine line) more

/-- The result has what it should have, line by line. -/
def Good (chars : WordChars) (directive : Directive) (mode : Mode)
    (lines : List (List Char)) : Prop :=
  (directive.remark chars mode lines).map activeWords =
    lines.map fun line => directive.outcome (activeWords line)

/-- A result is good when its first line is and the rest is. -/
theorem good_cons {mode : Mode} :
    directive.Good chars mode (line :: more) ↔
      activeWords (directive.remarkLine chars line more mode).1 =
          directive.outcome (activeWords line) ∧
        directive.Good chars (directive.remarkLine chars line more mode).2 more := by
  unfold Good
  rw [remark, List.map_cons, List.map_cons, List.cons_eq_cons]

/-- Nothing should become of an empty line. -/
theorem outcome_nil : directive.outcome [] = [] := by
  unfold outcome
  split <;> rfl

/-- A line of one word stays. -/
theorem outcome_of_short {words : List (List Char)} (short : words.length ≤ 1) :
    directive.outcome words = words := by
  refine if_neg fun dangerous => ?_
  have length := List.IsPrefix.length_le dangerous
  rw [List.length_cons, List.length_singleton] at length
  omega

/-- No line should become the bare command. -/
theorem outcome_ne_command (words : List (List Char)) :
    directive.outcome words ≠ [directive.command, directive.argument] := by
  unfold outcome
  split
  · exact (List.cons_ne_nil _ _).symm
  · next safe =>
      rintro rfl
      exact safe (List.prefix_refl _)

/-- Only the argument alone should become the argument alone. -/
theorem outcome_eq_argument_iff {words : List (List Char)} :
    [directive.argument] = directive.outcome words ↔ words = [directive.argument] := by
  constructor
  · intro same
    unfold outcome at same
    split at same
    · cases same
    · exact same.symm
  · rintro rfl
    have short : [directive.argument].length ≤ 1 := Nat.le_refl 1
    exact (outcome_of_short short).symm

/-- A line should go exactly when it is the command. -/
theorem outcome_eq_nil_iff {words : List (List Char)} (some : words ≠ []) :
    [] = directive.outcome words ↔ directive.Dangerous words := by
  unfold outcome
  split
  · next dangerous => exact iff_of_true rfl dangerous
  · next safe => exact iff_of_false some.symm safe

/-- What a line is. -/
theorem blank_facts (blank : isBlankLine line = true) :
    directive.inLine chars line = false ∧ directive.bare line = false := by
  have other : firstWord line ≠ directive.command := by
    unfold firstWord
    rw [List.dropWhile_eq_nil_iff.mpr (List.all_eq_true.mp blank)]
    exact command_ne_nil.symm
  unfold inLine bare
  rw [beq_false_of_ne other]
  exact ⟨rfl, rfl⟩

/-- A line with its argument is not bare. -/
theorem bare_of_inLine (within : directive.inLine chars line = true) :
    directive.bare line = false := by
  unfold bare
  rw [visible_of_starts (inLine_iff.mp within).2, Bool.and_false]

/-- The words of a bare line. -/
theorem activeWords_bare (isBare : directive.bare line = true) :
    activeWords line = [directive.command] := by
  obtain ⟨same, blank⟩ := bare_iff.mp isBare
  rw [activeWords_of_command same, activeWords_of_blank blank]

/-- Without a match ahead it does not matter what the line before is. -/
theorem harmless_of_noHit {lines : List (List Char)}
    (noHit : directive.hitAhead chars lines = false) (first second : Bool) :
    directive.Harmless chars first lines ↔ directive.Harmless chars second lines := by
  cases lines with
  | nil => exact Iff.rfl
  | cons line more =>
      have nothing : directive.inLine chars line = false ∧
          (directive.bare line = true → directive.argumentAhead chars more = false) := by
        rw [hitAhead] at noHit
        cases blank : isBlankLine line with
        | true =>
            have facts : directive.inLine chars line = false ∧ directive.bare line = false :=
              blank_facts blank
            refine ⟨facts.1, fun bareLine => ?_⟩
            rw [facts.2] at bareLine
            cases bareLine
        | false =>
            rw [blank, if_neg Bool.false_ne_true, Bool.or_eq_false_iff] at noHit
            refine ⟨noHit.1, fun bareLine => ?_⟩
            rw [bareLine, Bool.true_and] at noHit
            exact noHit.2
      unfold Harmless
      rw [nothing.1]
      have noLine {result : Prop} : false = true → result := fun impossible =>
        absurd impossible Bool.false_ne_true
      refine and_congr (iff_of_true noLine noLine) (and_congr ?_ Iff.rfl)
      constructor
      · intro _ isBare ahead
        rw [nothing.2 isBare] at ahead
        cases ahead
      · intro _ isBare ahead
        rw [nothing.2 isBare] at ahead
        cases ahead

end Lines

/-- The argument alone is no match. -/
theorem hitAhead_of_argumentAhead {lines : List (List Char)}
    (ahead : directive.argumentAhead chars lines = true) :
    directive.hitAhead chars lines = false := by
  induction lines with
  | nil => rfl
  | cons line more ih =>
      rw [argumentAhead] at ahead
      rw [hitAhead]
      cases blank : isBlankLine line with
      | true =>
          rw [blank, if_pos rfl] at ahead
          rw [if_pos rfl, ih ahead]
      | false =>
          rw [blank, if_neg Bool.false_ne_true] at ahead
          unfold inLine bare
          rw [if_neg Bool.false_ne_true, beq_false_of_ne (firstWord_ne_command ahead)]
          rfl

/-- A blank line does no harm, and is noted for the next one. -/
theorem harmless_blank {line : List Char} (blank : isBlankLine line = true) (afterBlank : Bool)
    (more : List (List Char)) :
    directive.Harmless chars afterBlank (line :: more) ↔ directive.Harmless chars true more := by
  have facts : directive.inLine chars line = false ∧ directive.bare line = false :=
    blank_facts blank
  rw [Harmless, facts.1, facts.2, blank]
  exact ⟨fun all => all.2.2, fun rest => ⟨nofun, nofun, rest⟩⟩

/-- The result is as it should be exactly for harmless lines. -/
theorem good_iff_harmless (lines : List (List Char)) :
    (directive.Good chars .text lines ↔ directive.Harmless chars false lines) ∧
      (directive.hitAhead chars lines = true →
        (directive.Good chars .opened lines ↔ directive.Harmless chars true lines)) ∧
      (directive.argumentAhead chars lines = true →
        (directive.Good chars .awaiting lines ↔
          nextWords lines = [directive.argument] ∧ directive.Harmless chars false lines)) := by
  induction lines with
  | nil =>
      refine ⟨iff_of_true rfl trivial, ?_, ?_⟩
      · rintro ⟨⟩
      · rintro ⟨⟩
  | cons line more ih =>
      obtain ⟨text, opened, awaiting⟩ := ih
      rw [good_cons, good_cons, good_cons]
      unfold remarkLine openedLine
      rw [hitAhead, argumentAhead, nextWords]
      cases blank : isBlankLine line with
      | true =>
          have nothing : activeWords line = directive.outcome (activeWords line) := by
            rw [activeWords_of_blank blank, outcome_nil]
          rw [harmless_blank blank, harmless_blank blank]
          simp only [if_true]
          refine ⟨?_, fun ahead => ?_, fun ahead => ?_⟩
          · cases ahead : directive.hitAhead chars more with
            | true =>
                have marked :
                    activeWords (mark ++ line) = directive.outcome (activeWords line) := by
                  rw [activeWords_mark, ← nothing, activeWords_of_blank blank]
                exact (and_iff_right marked).trans (opened ahead)
            | false =>
                exact (and_iff_right nothing).trans (text.trans (harmless_of_noHit ahead _ _))
          · exact (and_iff_right nothing).trans (opened ahead)
          · rw [harmless_of_noHit (hitAhead_of_argumentAhead ahead) true false]
            exact (and_iff_right nothing).trans (awaiting ahead)
      | false =>
          rw [Harmless, Harmless, blank]
          simp only [Bool.false_eq_true, if_false]
          cases within : directive.inLine chars line with
          | true =>
              have isBare : directive.bare line = false := bare_of_inLine within
              have some : activeWords line ≠ [] := by
                rw [activeWords_of_command (inLine_iff.mp within).1]
                exact List.cons_ne_nil _ _
              simp only [Bool.true_or, if_true, isBare, Bool.false_eq_true, false_implies, true_and,
                true_implies]
              refine ⟨?_, ?_, ?_⟩
              · rw [activeWords_mark, outcome_eq_nil_iff some, text]
              · rw [activeWords_noteInLine within]
                refine iff_of_false (fun both => ?_) fun all => ?_
                · exact outcome_ne_command _ both.1.symm
                · cases all.1.1
              · intro starts
                exact absurd (inLine_iff.mp within).1 (firstWord_ne_command starts)
          | false =>
              have kept : activeWords line = directive.outcome (activeWords line) := by
                refine (if_neg fun dangerous => ?_).symm
                rw [inLine_of_dangerous dangerous] at within
                cases within
              have ends : directive.starts chars line = true →
                  (activeWords (directive.noteAfter line) = directive.outcome (activeWords line) ∧
                    directive.Good chars .text more ↔
                  activeWords line = [directive.argument] ∧
                    directive.Harmless chars false more) := by
                intro _
                rw [activeWords_noteAfter, outcome_eq_argument_iff, text]
              cases isBare : directive.bare line with
              | true =>
                  have same := (bare_iff.mp isBare).1
                  have single : activeWords line ≠ [] := by
                    rw [activeWords_bare isBare]
                    exact List.cons_ne_nil _ _
                  have notDangerous : ¬ directive.Dangerous (activeWords line) := by
                    intro dangerous
                    rw [inLine_of_dangerous dangerous] at within
                    cases within
                  cases ahead : directive.argumentAhead chars more with
                  | true =>
                      simp only [Bool.or_true, Bool.and_true, if_true, Bool.false_eq_true,
                        false_implies, true_and, true_implies]
                      refine ⟨?_, ?_, ?_⟩
                      · rw [activeWords_mark, outcome_eq_nil_iff single]
                        refine iff_of_false (fun both => notDangerous both.1) fun all => ?_
                        exact all.1.1
                      · exact (and_iff_right kept).trans (awaiting ahead)
                      · intro starts
                        exact absurd same (firstWord_ne_command starts)
                  | false =>
                      simp only [Bool.or_false, Bool.and_false, if_false, Bool.false_eq_true,
                        false_implies, true_and, implies_true]
                      refine ⟨(and_iff_right kept).trans text, fun starts => ?_⟩
                      exact absurd same (firstWord_ne_command starts)
              | false =>
                  simp only [Bool.or_false, Bool.false_and, if_false, Bool.false_eq_true,
                    false_implies, true_and]
                  exact ⟨(and_iff_right kept).trans text, ends⟩

/-! ## What else can be lost -/

/-- A line that the substitution may make a comment of although it should stay. -/
structure Losable (directive : Directive) (line : List (List Char)) : Prop where
  safe : ¬ directive.Dangerous line
  other : line ≠ [directive.argument]
  first : ∃ word rest, line = word :: rest ∧
    (word = directive.command ∨ directive.argument <+: word)

/-- What the mode is about lies ahead. -/
def Expects (chars : WordChars) (directive : Directive) (lines : List (List Char)) : Mode → Prop
  | .text => True
  | .opened => directive.hitAhead chars lines = true
  | .awaiting => directive.argumentAhead chars lines = true

section Loss

variable {line : List Char} {more : List (List Char)} {mode : Mode}

/-- After the first line of a match, what the mode is about still lies ahead. -/
theorem expects_openedLine (ahead : directive.hitAhead chars (line :: more) = true) :
    directive.Expects chars more (directive.openedLine chars line).2 := by
  rw [hitAhead] at ahead
  unfold openedLine
  cases blank : isBlankLine line with
  | true =>
      rw [blank, if_pos rfl] at ahead
      rw [if_pos rfl]
      exact ahead
  | false =>
      rw [blank, if_neg Bool.false_ne_true] at ahead
      rw [if_neg Bool.false_ne_true]
      cases within : directive.inLine chars line with
      | true => trivial
      | false =>
          rw [within, Bool.false_or, Bool.and_eq_true] at ahead
          exact ahead.2

/-- After any line, what the mode is about still lies ahead. -/
theorem expects_remarkLine (expects : directive.Expects chars (line :: more) mode) :
    directive.Expects chars more (directive.remarkLine chars line more mode).2 := by
  cases mode with
  | text =>
      unfold remarkLine
      dsimp only
      split
      · next ahead => exact expects_openedLine ahead
      · trivial
  | opened => exact expects_openedLine expects
  | awaiting =>
      unfold Expects at expects
      rw [argumentAhead] at expects
      unfold remarkLine
      dsimp only
      split
      · next blank =>
          rw [blank, if_pos rfl] at expects
          exact expects
      · trivial

/-- A line with something in it at which a match begins has the command in front. -/
theorem firstWord_of_hitAhead (ahead : directive.hitAhead chars (line :: more) = true)
    (some : activeWords line ≠ []) : firstWord line = directive.command := by
  rw [hitAhead] at ahead
  cases blank : isBlankLine line with
  | true => exact absurd (activeWords_of_blank blank) some
  | false =>
      rw [blank, if_neg Bool.false_ne_true, Bool.or_eq_true, Bool.and_eq_true] at ahead
      rcases ahead with within | ⟨isBare, -⟩
      · exact (inLine_iff.mp within).1
      · exact (bare_iff.mp isBare).1

/-- No line comes up that was not there, but for the argument and the command itself. -/
theorem old_of_new {words : List (List Char)} (some : words ≠ [])
    (safe : ¬ directive.Dangerous words) (other : words ≠ [directive.argument])
    (new : activeWords (directive.remarkLine chars line more mode).1 = words) :
    activeWords line = words := by
  cases mode with
  | text =>
      unfold remarkLine at new
      dsimp only at new
      split at new
      · rw [activeWords_mark] at new
        exact absurd new.symm some
      · exact new
  | opened =>
      unfold remarkLine openedLine at new
      dsimp only at new
      split at new
      · exact new
      · split at new
        · next within =>
            rw [activeWords_noteInLine within] at new
            exact absurd (new ▸ List.prefix_refl _) safe
        · exact new
  | awaiting =>
      unfold remarkLine at new
      dsimp only at new
      split at new
      · exact new
      · rw [activeWords_noteAfter] at new
        exact absurd new.symm other

/-- Where a line does not become what it should, the command stays or another line is lost. -/
theorem dangerous_or_lost (expects : directive.Expects chars (line :: more) mode)
    (bad : activeWords (directive.remarkLine chars line more mode).1 ≠
      directive.outcome (activeWords line)) :
    directive.Dangerous (activeWords (directive.remarkLine chars line more mode).1) ∨
      directive.Losable (activeWords line) ∧
        activeWords (directive.remarkLine chars line more mode).1 ≠ activeWords line := by
  have same : ∀ words, words ≠ directive.outcome words → directive.Dangerous words := by
    intro words changed
    by_contra safe
    exact changed (if_neg safe).symm
  have commandFirst : firstWord line = directive.command →
      ¬ directive.Dangerous (activeWords line) → directive.Losable (activeWords line) := by
    intro first safe
    have begins := activeWords_of_command first
    refine ⟨safe, ?_, ⟨_, _, begins, .inl rfl⟩⟩
    rw [begins]
    intro isArgument
    rw [List.cons_eq_cons] at isArgument
    exact directive.apart.1 (isArgument.1 ▸ List.prefix_refl _)
  cases mode with
  | text =>
      unfold remarkLine at bad ⊢
      dsimp only at bad ⊢
      split at bad
      · next ahead =>
          rw [if_pos ahead]
          rw [activeWords_mark] at bad ⊢
          have some : activeWords line ≠ [] := by
            intro empty
            rw [empty, outcome_nil] at bad
            exact bad rfl
          have safe : ¬ directive.Dangerous (activeWords line) :=
            fun dangerous => bad ((outcome_eq_nil_iff some).mpr dangerous)
          exact .inr ⟨commandFirst (firstWord_of_hitAhead ahead some) safe, some.symm⟩
      · next noHit =>
          rw [if_neg noHit]
          exact .inl (same _ bad)
  | opened =>
      unfold remarkLine openedLine at bad ⊢
      dsimp only at bad ⊢
      split at bad
      · next blank =>
          rw [if_pos blank]
          exact .inl (same _ bad)
      · next visible =>
          rw [if_neg visible]
          split at bad
          · next within =>
              rw [if_pos within, activeWords_noteInLine within]
              exact .inl (List.prefix_refl _)
          · next without =>
              rw [if_neg without]
              exact .inl (same _ bad)
  | awaiting =>
      unfold Expects at expects
      rw [argumentAhead] at expects
      unfold remarkLine at bad ⊢
      dsimp only at bad ⊢
      split at bad
      · next blank =>
          rw [if_pos blank]
          exact .inl (same _ bad)
      · next visible =>
          rw [if_neg visible] at expects ⊢
          rw [activeWords_noteAfter] at bad ⊢
          rw [ne_eq, outcome_eq_argument_iff] at bad
          obtain ⟨begins, first⟩ := activeWords_of_begins argument_ne_nil argument_noMark
            directive.argument_visible expects
          have safe : ¬ directive.Dangerous (activeWords line) := by
            intro dangerous
            have within : directive.inLine chars line = true := inLine_of_dangerous dangerous
            exact firstWord_ne_command expects (inLine_iff.mp within).1
          exact .inr ⟨⟨safe, bad, _, _, begins, .inr first⟩, Ne.symm bad⟩

/-- A line that can be lost is not empty. -/
theorem Losable.ne_nil {words : List (List Char)} (losable : directive.Losable words) :
    words ≠ [] := by
  obtain ⟨word, rest, shape, _⟩ := losable.first
  rw [shape]
  exact List.cons_ne_nil _ _

/-- Lines that cannot be lost or made by the substitution become no more frequent. -/
theorem count_remark_le {words : List (List Char)} (some : words ≠ [])
    (safe : ¬ directive.Dangerous words) (other : words ≠ [directive.argument])
    (mode : Mode) (lines : List (List Char)) :
    ((directive.remark chars mode lines).map activeWords).count words ≤
      (lines.map activeWords).count words := by
  induction lines generalizing mode with
  | nil => exact Nat.le_refl _
  | cons line more ih =>
      have later := ih (directive.remarkLine chars line more mode).2
      rw [remark, List.map_cons, List.map_cons, List.count_cons, List.count_cons]
      by_cases new : activeWords (directive.remarkLine chars line more mode).1 = words
      · have old := old_of_new some safe other new
        rw [new, old]
        omega
      · rw [if_neg (by simpa using new)]
        omega

/-- Where the result is not as it should be, the command is still in it, or it has fewer of some
other line. -/
theorem dangerous_or_fewer {lines : List (List Char)}
    (expects : directive.Expects chars lines mode) (bad : ¬ directive.Good chars mode lines) :
    (∃ words ∈ (directive.remark chars mode lines).map activeWords, directive.Dangerous words) ∨
      ∃ words, directive.Losable words ∧
        ((directive.remark chars mode lines).map activeWords).count words <
          (lines.map activeWords).count words := by
  induction lines generalizing mode with
  | nil => exact absurd rfl bad
  | cons line more ih =>
      rw [remark, List.map_cons, List.map_cons]
      by_cases here : activeWords (directive.remarkLine chars line more mode).1 =
          directive.outcome (activeWords line)
      · have later : ¬ directive.Good chars (directive.remarkLine chars line more mode).2 more :=
          fun good => bad (good_cons.mpr ⟨here, good⟩)
        rcases ih (expects_remarkLine expects) later with
          ⟨words, member, dangerous⟩ | ⟨words, losable, fewer⟩
        · exact .inl ⟨words, List.mem_cons_of_mem _ member, dangerous⟩
        · refine .inr ⟨words, losable, ?_⟩
          rw [List.count_cons, List.count_cons]
          by_cases new : activeWords (directive.remarkLine chars line more mode).1 = words
          · have old := old_of_new losable.ne_nil losable.safe losable.other new
            rw [new, old]
            omega
          · rw [if_neg (by simpa using new)]
            omega
      · rcases dangerous_or_lost expects here with dangerous | ⟨losable, changed⟩
        · exact .inl ⟨_, List.mem_cons_self, dangerous⟩
        · refine .inr ⟨_, losable, ?_⟩
          have later : ((directive.remark chars _ more).map activeWords).count _ ≤ _ :=
            count_remark_le losable.ne_nil losable.safe losable.other
              (directive.remarkLine chars line more mode).2 more
          rw [List.count_cons, List.count_cons_self, if_neg (by simpa using changed)]
          omega

end Loss

end Directive

/-! ## Lines that do not matter -/

namespace Directive

variable {chars : WordChars} {directive : Directive}

/-- Neither the command nor the argument is in front. -/
def Inert (directive : Directive) (line : List Char) : Prop :=
  isBlankLine line = false ∧ firstWord line ≠ directive.command ∧
    ¬ directive.argument <+: line.dropWhile isBlank

instance (line : List Char) : Decidable (directive.Inert line) :=
  inferInstanceAs (Decidable (_ ∧ _))

/-- A line with neither in front is no part of a match. -/
theorem Inert.facts {line : List Char} (inert : directive.Inert line) :
    directive.inLine chars line = false ∧ directive.bare line = false ∧
      directive.starts chars line = false := by
  obtain ⟨_, other, noStart⟩ := inert
  unfold inLine bare
  rw [beq_false_of_ne other]
  refine ⟨rfl, rfl, ?_⟩
  rw [Bool.eq_false_iff]
  exact fun starts => noStart (prefix_of_begins starts)

/-- The argument does not lie ahead behind such a line. -/
theorem argumentAhead_inert {line : List Char} (inert : directive.Inert line)
    (more : List (List Char)) : directive.argumentAhead chars (line :: more) = false := by
  rw [argumentAhead, inert.1, if_neg Bool.false_ne_true]
  exact inert.facts.2.2

/-- Such a line does no harm. -/
theorem harmless_inert {line : List Char} (inert : directive.Inert line) (afterBlank : Bool)
    (more : List (List Char)) :
    directive.Harmless chars afterBlank (line :: more) ↔ directive.Harmless chars false more := by
  have facts : directive.inLine chars line = false ∧ directive.bare line = false ∧
      directive.starts chars line = false := inert.facts
  rw [Harmless, facts.1, facts.2.1, inert.1]
  exact ⟨fun all => all.2.2, fun rest => ⟨nofun, nofun, rest⟩⟩

/-- Lines that are the same to a line in front of them. -/
structure Alike (chars : WordChars) (directive : Directive)
    (first second : List (List Char)) : Prop where
  ahead : directive.argumentAhead chars first = directive.argumentAhead chars second
  next : directive.argumentAhead chars second = true → nextWords first = nextWords second
  harmless : ∀ afterBlank,
    directive.Harmless chars afterBlank first ↔ directive.Harmless chars afterBlank second

/-- Lines are alike to themselves. -/
theorem Alike.refl (lines : List (List Char)) : directive.Alike chars lines lines :=
  ⟨rfl, fun _ => rfl, fun _ => Iff.rfl⟩

/-- A line in front leaves them alike. -/
theorem Alike.cons {first second : List (List Char)} (alike : directive.Alike chars first second)
    (line : List Char) : directive.Alike chars (line :: first) (line :: second) where
  ahead := by rw [argumentAhead, argumentAhead, alike.ahead]
  next := by
    intro found
    rw [argumentAhead] at found
    rw [nextWords, nextWords]
    split
    · next blank =>
        rw [if_pos blank] at found
        exact alike.next found
    · rfl
  harmless afterBlank := by
    rw [Harmless, Harmless, alike.ahead]
    refine and_congr Iff.rfl (and_congr ?_ (alike.harmless _))
    constructor
    · intro all isBare found
      rw [← alike.next found]
      exact all isBare found
    · intro all isBare found
      rw [alike.next found]
      exact all isBare found

/-- Of inert lines nothing is seen. -/
theorem Alike.inert {first second : List (List Char)} (alike : directive.Alike chars first second)
    {line other : List Char} (before : directive.Inert line) (after : directive.Inert other) :
    directive.Alike chars (line :: first) (other :: second) where
  ahead := by rw [argumentAhead_inert before, argumentAhead_inert after]
  next := by
    intro found
    rw [argumentAhead_inert after] at found
    cases found
  harmless afterBlank := by
    rw [harmless_inert before, harmless_inert after]
    exact alike.harmless false

/-- Inert lines at the end do not matter. -/
theorem harmless_append_inert {last : List (List Char)}
    (nothing : directive.argumentAhead chars last = false)
    (harmless : ∀ afterBlank, directive.Harmless chars afterBlank last) (afterBlank : Bool)
    (lines : List (List Char)) :
    directive.Harmless chars afterBlank (lines ++ last) ↔
      directive.Harmless chars afterBlank lines := by
  have alike : directive.Alike chars (lines ++ last) lines := by
    induction lines with
    | nil => exact ⟨nothing, nofun, fun afterBlank => iff_of_true (harmless afterBlank) trivial⟩
    | cons line more ih => exact ih.cons line
  exact alike.harmless afterBlank

/-- Lines may be exchanged for others where both are inert. -/
theorem harmless_map {change : List Char → List Char}
    (same : ∀ line, change line = line ∨ directive.Inert line ∧ directive.Inert (change line))
    (afterBlank : Bool) (lines : List (List Char)) :
    directive.Harmless chars afterBlank (lines.map change) ↔
      directive.Harmless chars afterBlank lines := by
  have alike : directive.Alike chars (lines.map change) lines := by
    induction lines with
    | nil => exact Alike.refl []
    | cons line more ih =>
        rw [List.map_cons]
        rcases same line with kept | ⟨before, after⟩
        · rw [kept]
          exact ih.cons line
        · exact ih.inert after before
  exact alike.harmless afterBlank

end Directive

/-! ## Cleared scripts -/

/-- Nothing dangerous is left, and all other lines of the text are there in their order. -/
def Cleared (Dangerous : List (List Char) → Prop) [DecidablePred Dangerous]
    (text result : List Char) : Prop :=
  (∀ line ∈ activeLines (linesOf result), ¬ Dangerous line) ∧
    List.Sublist ((activeLines (linesOf text)).filter fun line => ¬ Dangerous line)
      (activeLines (linesOf result))

instance (Dangerous : List (List Char) → Prop) [DecidablePred Dangerous]
    (text result : List Char) : Decidable (Cleared Dangerous text result) :=
  inferInstanceAs (Decidable (_ ∧ _))

namespace Directive

variable {chars : WordChars} {directive : Directive}

/-- A line with words occurs as often among the active lines as among all. -/
theorem count_activeLines {words : List (List Char)} (some : words ≠ [])
    (lines : List (List Char)) :
    (activeLines lines).count words = (lines.map activeWords).count words :=
  List.count_filter (by simpa using some)

/-- What should be left of a text is its active lines without the dangerous ones. -/
theorem filter_map_outcome (lines : List (List (List Char))) :
    (lines.map directive.outcome).filter (· ≠ []) =
      (lines.filter (· ≠ [])).filter fun line => ¬ directive.Dangerous line := by
  induction lines with
  | nil => rfl
  | cons line more ih =>
      rw [List.map_cons]
      by_cases dangerous : directive.Dangerous line
      · have some : line ≠ [] := by
          rintro rfl
          exact absurd (List.prefix_nil.mp dangerous) (List.cons_ne_nil _ _)
        have gone : directive.outcome line = [] := if_pos dangerous
        rw [gone, List.filter_cons_of_neg (by simp), List.filter_cons_of_pos (by simpa using some),
          List.filter_cons_of_neg (by simpa using dangerous), ih]
      · have kept : directive.outcome line = line := if_neg dangerous
        rw [kept]
        by_cases empty : line = []
        · rw [List.filter_cons_of_neg (by simpa using empty),
            List.filter_cons_of_neg (by simpa using empty), ih]
        · rw [List.filter_cons_of_pos (by simpa using empty),
            List.filter_cons_of_pos (by simpa using empty),
            List.filter_cons_of_pos (by simpa using dangerous), ih]

/-- What is left when every line became what it should. -/
theorem activeLines_of_good {lines : List (List Char)}
    (good : directive.Good chars .text lines) :
    activeLines (directive.remark chars .text lines) =
      (activeLines lines).filter fun line => ¬ directive.Dangerous line := by
  unfold activeLines
  rw [good, ← filter_map_outcome, List.map_map]
  rfl

/-- The command is commented out, and nothing else, exactly where the lines are harmless. -/
theorem cleared_commentOut_iff (text : List Char) :
    Cleared directive.Dangerous text (directive.commentOut chars text) ↔
      directive.Harmless chars false (linesOf text) := by
  have decides : directive.Good chars .text (linesOf text) ↔
      directive.Harmless chars false (linesOf text) := (good_iff_harmless _).1
  unfold Cleared
  rw [linesOf_commentOut, ← decides]
  constructor
  · rintro ⟨nothing, kept⟩
    by_contra bad
    have expects : directive.Expects chars (linesOf text) .text := trivial
    rcases dangerous_or_fewer expects bad with ⟨words, member, dangerous⟩ | ⟨words, losable, fewer⟩
    · have some : words ≠ [] := by
        rintro rfl
        exact absurd (List.prefix_nil.mp dangerous) (List.cons_ne_nil _ _)
      exact nothing words (List.mem_filter.mpr ⟨member, by simpa using some⟩) dangerous
    · have counted := kept.count_le words
      rw [List.count_filter (by simpa using losable.safe), count_activeLines losable.ne_nil,
        count_activeLines losable.ne_nil] at counted
      omega
  · intro good
    rw [activeLines_of_good good]
    refine ⟨fun line member => ?_, List.Sublist.refl _⟩
    simpa using (List.mem_filter.mp member).2

end Directive

end Nookobo.Boot
