import Nookobo.Boot.InitRc

/-!
# What the patch leaves of the init scripts

The steps on `init.rc` one behind the other, as changes of rows of words: the hook and the
service only add lines, unless the line with the trigger says more than the trigger; stripping
takes the `critical` options away, and with them a line whose first word only begins so; and
what becomes of `class_start main` depends on the line in front of it.
-/

namespace Nookobo.Boot

open Nookobo.Text

/-- The lines that must not be active in `init.rc`. -/
def DangerousInit (line : List (List Char)) : Prop :=
  [critical] <+: line ∨ classStart.Dangerous line

instance : DecidablePred DangerousInit := fun _ => inferInstanceAs (Decidable (_ ∨ _))

/-- No word but `critical` itself begins with it and an edge. -/
def CriticalAlone (chars : WordChars) (lines : List (List Char)) : Prop :=
  ∀ line ∈ lines, beginsWith chars critical line = true → firstWord line = critical

/-- The texts of `init.rc` that the patch defuses and otherwise leaves alone. -/
structure Patchable (chars : WordChars) (content : List Char) : Prop where
  hook : ¬ "boot_linux".toList <:+: content → HookFits chars (linesOf content)
  critical : CriticalAlone chars (linesOf content)
  classStart : classStart.Harmless chars false (linesOf content)

/-! ## Stripping -/

section Strip

variable {chars : WordChars} {lines : List (List Char)}

/-- The words of a line that begins with `critical`. -/
theorem activeWords_critical {line : List Char} (starts : beginsWith chars critical line = true) :
    (∃ rest, activeWords line = firstWord line :: rest) ∧ critical <+: firstWord line := by
  obtain ⟨begins, inWord⟩ :=
    activeWords_of_begins critical_ne_nil critical_noMark critical_visible starts
  exact ⟨⟨_, begins⟩, inWord⟩

/-- An option `critical` is a line that the substitution touches. -/
theorem begins_of_critical {line : List Char} (option : [critical] <+: activeWords line) :
    beginsWith chars critical line = true := by
  have visible : isBlankLine line = false := by
    rw [Bool.eq_false_iff]
    intro blank
    rw [activeWords_of_blank blank, List.prefix_nil] at option
    cases option
  have begins := words_of_visible visible
  unfold activeWords at option
  rw [begins, List.takeWhile_cons] at option
  split at option
  · rw [List.cons_prefix_cons] at option
    exact begins_of_firstWord option.1.symm
  · rw [List.prefix_nil] at option
    cases option

/-- Where the word is alone, the options are all that goes. -/
theorem activeLines_strip (alone : CriticalAlone chars lines) :
    activeLines (lines.map (stripLine chars)) =
      (activeLines lines).filter fun line => ¬ [critical] <+: line := by
  induction lines with
  | nil => rfl
  | cons line more ih =>
      obtain ⟨here, later⟩ := List.forall_mem_cons.mp alone
      have ahead := ih later
      unfold activeLines at ahead ⊢
      rw [List.map_cons, List.map_cons, List.map_cons, activeWords_stripLine]
      split
      · next starts =>
          obtain ⟨⟨rest, begins⟩, _⟩ := activeWords_critical starts
          rw [here starts] at begins
          rw [begins, List.filter_cons_of_neg (by simp), List.filter_cons_of_pos (by simp),
            List.filter_cons_of_neg (by simp), ahead]
      · next noStart =>
          have safe : ¬ [critical] <+: activeWords line := fun option =>
            noStart (begins_of_critical option)
          by_cases empty : activeWords line = []
          · rw [List.filter_cons_of_neg (by simpa using empty),
              List.filter_cons_of_neg (by simpa using empty), ahead]
          · rw [List.filter_cons_of_pos (by simpa using empty),
              List.filter_cons_of_pos (by simpa using empty),
              List.filter_cons_of_pos (by simpa using safe), ahead]

/-- Stripping `critical` makes no other line more frequent. -/
theorem count_strip_le {words : List (List Char)} (some : words ≠ []) :
    ((lines.map (stripLine chars)).map activeWords).count words ≤
      (lines.map activeWords).count words := by
  induction lines with
  | nil => exact Nat.le_refl _
  | cons line more ih =>
      rw [List.map_cons, List.map_cons, List.map_cons, activeWords_stripLine, List.count_cons,
        List.count_cons]
      split
      · rw [if_neg (by simpa using some.symm)]
        omega
      · omega

/-- A longer word is lost. -/
theorem fewer_strip (bad : ¬ CriticalAlone chars lines) :
    ∃ word rest, word ≠ critical ∧ critical <+: word ∧
      ((lines.map (stripLine chars)).map activeWords).count (word :: rest) <
        (lines.map activeWords).count (word :: rest) := by
  induction lines with
  | nil => exact absurd (fun _ => nofun) bad
  | cons line more ih =>
      by_cases here : beginsWith chars critical line = true → firstWord line = critical
      · have later : ¬ CriticalAlone chars more :=
          fun alone => bad (List.forall_mem_cons.mpr ⟨here, alone⟩)
        obtain ⟨word, rest, other, begins, fewer⟩ := ih later
        refine ⟨word, rest, other, begins, ?_⟩
        rw [List.map_cons, List.map_cons, List.map_cons, activeWords_stripLine, List.count_cons,
          List.count_cons]
        split
        · rw [if_neg (by simp)]
          omega
        · omega
      · rw [Classical.not_imp] at here
        obtain ⟨starts, other⟩ := here
        obtain ⟨⟨rest, begins⟩, inWord⟩ := activeWords_critical starts
        refine ⟨_, rest, other, inWord, ?_⟩
        have later : ((more.map (stripLine chars)).map activeWords).count
            (firstWord line :: rest) ≤ _ := count_strip_le (List.cons_ne_nil _ _)
        rw [List.map_cons, List.map_cons, List.map_cons, activeWords_stripLine, if_pos starts,
          begins, List.count_cons_self, List.count_cons_of_ne (List.cons_ne_nil _ _).symm]
        omega

end Strip

/-! ## The conditions behind the first steps -/

section Transfer

variable {chars : WordChars} {line : List Char}

/-- `class_start` is not a comment mark. -/
theorem mark_ne_command : some '#' ≠ classStart.command.head? := by decide

/-- The line of the trigger is no part of a match. -/
theorem inert_trigger (starts : startsWord chars trigger line = true) : classStart.Inert line := by
  obtain ⟨visible, first, body⟩ := firstWord_trigger starts
  refine ⟨visible, by rw [first]; decide, ?_⟩
  rw [body]
  rintro ⟨rest, same⟩
  cases same

/-- The hook's last line is no part of a match. -/
theorem inert_hookComment (behind : List Char) : classStart.Inert (hookComment ++ behind) := by
  have body : (hookComment ++ behind).dropWhile isBlank =
      '#' :: (hookComment.drop 5 ++ behind) := rfl
  refine ⟨rfl, ?_, ?_⟩
  · unfold firstWord
    rw [body, List.takeWhile_cons_of_pos (p := fun char => !isBlank char) (by decide)]
    intro same
    exact mark_ne_command (congrArg List.head? same)
  · rw [body]
    rintro ⟨rest, same⟩
    cases same

/-- A line with `critical` in front is no part of a match, stripped or not. -/
theorem inert_strip (starts : beginsWith chars critical line = true) :
    classStart.Inert line ∧ classStart.Inert (stripLine chars line) := by
  have visible := visible_of_begins critical_ne_nil starts
  have body := prefix_of_begins starts
  constructor
  · refine ⟨visible, fun same => ?_, fun argument => ?_⟩
    · have inWord := prefix_firstWord critical_visible starts
      rw [same] at inWord
      exact absurd inWord (by decide)
    · have incompatible :
          ¬ (critical <+: classStart.argument ∨ classStart.argument <+: critical) := by
        decide
      exact incompatible (List.prefix_or_prefix_of_prefix body argument)
  · have allBlank : ∀ char ∈ line.takeWhile isBlank, isBlank char = true :=
      fun _ member => List.mem_takeWhile_imp member
    have after : (stripLine chars line).dropWhile isBlank =
        '#' :: (strippedNote.tail ++ (line.dropWhile isBlank).drop critical.length) := by
      unfold stripLine
      rw [if_pos starts, List.append_assoc, List.dropWhile_append_of_pos allBlank]
      rfl
    refine ⟨?_, ?_, ?_⟩
    · rw [Bool.eq_false_iff]
      intro blank
      rw [List.dropWhile_eq_nil_iff.mpr (List.all_eq_true.mp blank)] at after
      cases after
    · unfold firstWord
      rw [after, List.takeWhile_cons_of_pos (p := fun char => !isBlank char) (by decide)]
      intro same
      exact mark_ne_command (congrArg List.head? same)
    · rw [after]
      rintro ⟨rest, same⟩
      cases same

/-- Stripping `critical` does no harm to `class_start main` and takes none away. -/
theorem harmless_strip (afterBlank : Bool) (lines : List (List Char)) :
    classStart.Harmless chars afterBlank (lines.map (stripLine chars)) ↔
      classStart.Harmless chars afterBlank lines := by
  refine Directive.harmless_map (fun line => ?_) afterBlank lines
  cases starts : beginsWith chars critical line with
  | true => exact .inr (inert_strip starts)
  | false =>
      refine .inl ?_
      unfold stripLine
      rw [starts, if_neg Bool.false_ne_true]

/-- The lines that are put in for the trigger are as inert as the trigger. -/
theorem harmless_hookLines (afterBlank : Bool) (lines : List (List Char)) :
    classStart.Harmless chars afterBlank (hookLines chars lines) ↔
      classStart.Harmless chars afterBlank lines := by
  have commands : ∀ line ∈ hookCommands, classStart.Inert line := by decide +kernel
  have alike : classStart.Alike chars (hookLines chars lines) lines := by
    induction lines with
    | nil => exact Directive.Alike.refl []
    | cons line more ih =>
        rw [hookLines]
        split
        · next starts =>
            have inertLine := inert_trigger starts
            obtain ⟨first, second, third, fourth⟩ : classStart.Inert _ ∧ classStart.Inert _ ∧
                classStart.Inert _ ∧ classStart.Inert _ := by
              simpa only [hookCommands, List.forall_mem_cons, List.not_mem_nil, false_implies,
                implies_true, and_true] using commands
            refine ⟨?_, fun found => ?_, fun afterBlank => ?_⟩
            · rw [Directive.argumentAhead_inert inertLine]
              exact Directive.argumentAhead_inert first _
            · rw [Directive.argumentAhead_inert inertLine] at found
              cases found
            · unfold hookCommands
              simp only [List.cons_append, List.nil_append]
              rw [Directive.harmless_inert first, Directive.harmless_inert second,
                Directive.harmless_inert third, Directive.harmless_inert fourth,
                Directive.harmless_inert (inert_hookComment _), Directive.harmless_inert inertLine]
        · exact ih.cons line
  exact alike.harmless afterBlank

/-- The hook brings no word that begins with `critical`, and takes none away. -/
theorem criticalAlone_hookLines (lines : List (List Char)) :
    CriticalAlone chars (hookLines chars lines) ↔ CriticalAlone chars lines := by
  have noCritical : ∀ {line : List Char}, ¬ critical <+: line.dropWhile isBlank →
      beginsWith chars critical line = true → firstWord line = critical :=
    fun other starts => absurd (prefix_of_begins starts) other
  have commands : ∀ line ∈ hookCommands, ¬ critical <+: line.dropWhile isBlank := by
    decide +kernel
  unfold CriticalAlone
  induction lines with
  | nil => exact Iff.rfl
  | cons line more ih =>
      rw [hookLines]
      split
      · next starts =>
          obtain ⟨_, _, body⟩ := firstWord_trigger starts
          have noTrigger : ¬ critical <+: line.dropWhile isBlank := by
            rw [body]
            rintro ⟨rest, same⟩
            cases same
          have noComment : ¬ critical <+: (hookComment ++ line.drop trigger.length).dropWhile
              isBlank := by
            rintro ⟨rest, same⟩
            cases same
          rw [List.forall_mem_append, List.forall_mem_cons, List.forall_mem_cons]
          constructor
          · rintro ⟨_, _, later⟩
            exact ⟨noCritical noTrigger, later⟩
          · rintro ⟨_, later⟩
            exact ⟨fun line member => noCritical (commands line member), noCritical noComment,
              later⟩
      · rw [List.forall_mem_cons, List.forall_mem_cons]
        exact and_congr Iff.rfl ih

end Transfer

/-! ## The whole patch -/

section Patch

variable {chars : WordChars} {content : List Char}

/-- The text before `critical` is stripped. -/
def extended (chars : WordChars) (content : List Char) : List Char :=
  addService (addHook chars content)

/-- No line of the service definition begins with `critical`. -/
theorem activeWords_serviceLines :
    ∀ line ∈ serviceLines, ¬ critical <+: line.dropWhile isBlank := by
  rw [serviceLines_spelled]
  decide +kernel

/-- Hook and service bring no word that begins with `critical`, and take none away. -/
theorem criticalAlone_extended :
    CriticalAlone chars (linesOf (extended chars content)) ↔
      CriticalAlone chars (linesOf content) := by
  have hooked : CriticalAlone chars (linesOf (addHook chars content)) ↔
      CriticalAlone chars (linesOf content) := by
    rw [linesOf_addHook]
    split
    · exact Iff.rfl
    · exact criticalAlone_hookLines _
  unfold extended
  rw [linesOf_addService, ← hooked]
  split
  · exact Iff.rfl
  · unfold CriticalAlone
    rw [List.forall_mem_append]
    exact and_iff_left fun line member starts =>
      absurd (prefix_of_begins starts) (activeWords_serviceLines line member)

/-- The service definition has nothing that a match could go on with. -/
theorem harmless_serviceLines (afterBlank : Bool) :
    classStart.argumentAhead chars serviceLines = false ∧
      classStart.Harmless chars afterBlank serviceLines := by
  have shape : spelledLines = spelledLines.dropLast ++ [[]] := rfl
  have inert : ∀ line ∈ spelledLines.dropLast, classStart.Inert line := by decide +kernel
  have all : ∀ (lines : List (List Char)) (afterBlank : Bool),
      (∀ line ∈ lines, classStart.Inert line) →
        classStart.Harmless chars afterBlank (lines ++ [[]]) := by
    intro lines afterBlank inert
    induction lines generalizing afterBlank with
    | nil => exact ⟨nofun, nofun, trivial⟩
    | cons line more ih =>
        obtain ⟨here, later⟩ := List.forall_mem_cons.mp inert
        exact (Directive.harmless_inert here _ _).mpr (ih false later)
  rw [serviceLines_spelled, shape]
  refine ⟨?_, all _ _ inert⟩
  cases lines : spelledLines.dropLast with
  | nil => rfl
  | cons line more =>
      rw [lines] at inert
      exact Directive.argumentAhead_inert (inert _ List.mem_cons_self) _

/-- Hook and service do no harm to `class_start main` and take none away. -/
theorem harmless_extended :
    classStart.Harmless chars false (linesOf (extended chars content)) ↔
      classStart.Harmless chars false (linesOf content) := by
  have hooked : classStart.Harmless chars false (linesOf (addHook chars content)) ↔
      classStart.Harmless chars false (linesOf content) := by
    rw [linesOf_addHook]
    split
    · exact Iff.rfl
    · exact harmless_hookLines _ _
  unfold extended
  rw [linesOf_addService, ← hooked]
  split
  · exact Iff.rfl
  · exact Directive.harmless_append_inert (harmless_serviceLines false).1
      (fun afterBlank => (harmless_serviceLines afterBlank).2) _ _

/-- The service definition makes only its own lines more frequent. -/
theorem count_extended_le {words : List (List Char)} (fresh : words ∉ addedWords) :
    ((linesOf (extended chars content)).map activeWords).count words ≤
      ((linesOf (addHook chars content)).map activeWords).count words := by
  unfold extended
  rw [linesOf_addService]
  split
  · exact Nat.le_refl _
  · rw [List.map_append, List.count_append, (count_added fresh).2]
    exact Nat.le_refl _

/-- The hook makes only its own lines more frequent. -/
theorem count_addHook_le {words : List (List Char)} (some : words ≠ [])
    (fresh : words ∉ addedWords) :
    ((linesOf (addHook chars content)).map activeWords).count words ≤
      ((linesOf content).map activeWords).count words := by
  rw [linesOf_addHook]
  split
  · exact Nat.le_refl _
  · exact count_hookLines_le some fresh _

/-- Where the hook fits, all lines of the text stay. -/
theorem kept_extended
    (fits : ¬ "boot_linux".toList <:+: content → HookFits chars (linesOf content)) :
    List.Sublist (activeLines (linesOf content))
      (activeLines (linesOf (extended chars content))) := by
  have hooked : List.Sublist (activeLines (linesOf content))
      (activeLines (linesOf (addHook chars content))) := by
    rw [linesOf_addHook]
    split
    · exact List.Sublist.refl _
    · next absent => exact kept_hookLines (fits absent)
  refine hooked.trans ?_
  unfold extended
  rw [linesOf_addService]
  split
  · exact List.Sublist.refl _
  · unfold activeLines
    rw [List.map_append, List.filter_append]
    exact List.sublist_append_left _ _

/-- The patch works line by line. -/
theorem linesOf_patchInit (chars : WordChars) (content : List Char) :
    linesOf (patchInit chars content) =
      classStart.remark chars .text
        ((linesOf (extended chars content)).map (stripLine chars)) := by
  unfold patchInit
  rw [Directive.linesOf_commentOut, linesOf_stripCritical]
  rfl

/-- What is left of the text, when the text allows for it. -/
theorem activeLines_patchInit (patchable : Patchable chars content) :
    activeLines (linesOf (patchInit chars content)) =
      (activeLines (linesOf (extended chars content))).filter fun line => ¬ DangerousInit line := by
  have good : classStart.Good chars .text
      ((linesOf (extended chars content)).map (stripLine chars)) :=
    (Directive.good_iff_harmless _).1.mpr
      ((harmless_strip _ _).mpr (harmless_extended.mpr patchable.classStart))
  rw [linesOf_patchInit, Directive.activeLines_of_good good,
    activeLines_strip (criticalAlone_extended.mpr patchable.critical), List.filter_filter]
  refine List.filter_congr fun line _ => ?_
  unfold DangerousInit
  rw [← Bool.decide_and, decide_eq_decide, not_or, and_comm]

/-- A line that neither has to go nor was added does not become more frequent. -/
theorem count_patchInit_le {words : List (List Char)} (some : words ≠ [])
    (safe : ¬ classStart.Dangerous words) (other : words ≠ [classStart.argument]) :
    ((linesOf (patchInit chars content)).map activeWords).count words ≤
      (((linesOf (extended chars content)).map (stripLine chars)).map activeWords).count words := by
  rw [linesOf_patchInit]
  exact Directive.count_remark_le some safe other _ _

/-- A line that has become rarer has been lost. -/
theorem not_cleared_of_fewer {words : List (List Char)} (some : words ≠ [])
    (safe : ¬ DangerousInit words)
    (fewer : ((linesOf (patchInit chars content)).map activeWords).count words <
      ((linesOf content).map activeWords).count words) :
    ¬ Cleared DangerousInit content (patchInit chars content) := by
  rintro ⟨_, kept⟩
  have counted := kept.count_le words
  rw [List.count_filter (by simpa using safe), Directive.count_activeLines some,
    Directive.count_activeLines some] at counted
  omega

/-- The first word tells that a line is neither to go nor added. -/
theorem safe_of_first {word : List Char} {rest : List (List Char)} (noCritical : word ≠ critical)
    (noCommand : word ≠ classStart.command) : ¬ DangerousInit (word :: rest) := by
  rintro (option | command)
  · exact noCritical (List.cons_prefix_cons.mp option).1.symm
  · exact noCommand (List.cons_prefix_cons.mp command).1.symm

/-- If the text is cleared, the hook fitted. -/
theorem hook_of_cleared (cleared : Cleared DangerousInit content (patchInit chars content))
    (absent : ¬ "boot_linux".toList <:+: content) : HookFits chars (linesOf content) := by
  by_contra bad
  obtain ⟨rest, other, fewer⟩ := fewer_hookLines bad
  have fresh : "on".toList :: rest ∉ addedWords := fun member =>
    other ((first_addedWords _ member "on".toList rfl).2.2.2 rfl)
  have safe : ¬ DangerousInit ("on".toList :: rest) := safe_of_first (by decide) (by decide)
  have noArgument : "on".toList :: rest ≠ [classStart.argument] := by
    intro same
    exact absurd (List.cons_eq_cons.mp same).1 (by decide)
  have hooked : linesOf (addHook chars content) = hookLines chars (linesOf content) := by
    rw [linesOf_addHook, if_neg absent]
  have some : "on".toList :: rest ≠ [] := List.cons_ne_nil _ _
  have later : ((linesOf (extended chars content)).map activeWords).count ("on".toList :: rest) ≤
      _ := count_extended_le fresh
  rw [hooked] at later
  have last : ((linesOf (patchInit chars content)).map activeWords).count ("on".toList :: rest) ≤
      ((linesOf (extended chars content)).map activeWords).count ("on".toList :: rest) :=
    (count_patchInit_le some (fun command => safe (.inr command)) noArgument).trans
      (count_strip_le some)
  exact not_cleared_of_fewer some safe (by omega) cleared

/-- If the text is cleared, no other word began with `critical`. -/
theorem critical_of_cleared (cleared : Cleared DangerousInit content (patchInit chars content)) :
    CriticalAlone chars (linesOf content) := by
  rw [← criticalAlone_extended]
  by_contra bad
  obtain ⟨word, rest, other, begins, fewer⟩ := fewer_strip bad
  have fresh : word :: rest ∉ addedWords := fun member =>
    (first_addedWords _ member word rfl).2.2.1 begins
  have noCommand : word ≠ classStart.command := by
    rintro rfl
    exact absurd begins (by decide)
  have noArgument : word :: rest ≠ [classStart.argument] := by
    intro same
    rw [(List.cons_eq_cons.mp same).1] at begins
    exact absurd begins (by decide)
  have safe : ¬ DangerousInit (word :: rest) := safe_of_first other noCommand
  have some : word :: rest ≠ [] := List.cons_ne_nil _ _
  have first : ((linesOf (extended chars content)).map activeWords).count (word :: rest) ≤ _ :=
    (count_extended_le fresh).trans (count_addHook_le some fresh)
  have last : ((linesOf (patchInit chars content)).map activeWords).count (word :: rest) ≤
      (((linesOf (extended chars content)).map (stripLine chars)).map activeWords).count
        (word :: rest) :=
    count_patchInit_le some (fun command => safe (.inr command)) noArgument
  exact not_cleared_of_fewer some safe (by omega) cleared

/-- If the text is cleared, `class_start main` did no harm. -/
theorem classStart_of_cleared (cleared : Cleared DangerousInit content (patchInit chars content)) :
    classStart.Harmless chars false (linesOf content) := by
  rw [← harmless_extended, ← harmless_strip, ← (Directive.good_iff_harmless _).1]
  by_contra bad
  have expects : classStart.Expects chars
      ((linesOf (extended chars content)).map (stripLine chars)) .text := trivial
  rcases Directive.dangerous_or_fewer expects bad with
    ⟨words, member, dangerous⟩ | ⟨words, losable, fewer⟩
  · have some : words ≠ [] := by
      rintro rfl
      exact absurd (List.prefix_nil.mp dangerous) (List.cons_ne_nil _ _)
    refine cleared.1 words (List.mem_filter.mpr ⟨?_, by simpa using some⟩) (.inr dangerous)
    rw [linesOf_patchInit]
    exact member
  · have some := losable.ne_nil
    obtain ⟨word, rest, shape, first⟩ := losable.first
    have fresh : words ∉ addedWords := by
      intro member
      have facts := first_addedWords words member word (by rw [shape]; rfl)
      rcases first with same | isPrefix
      · exact facts.1 same
      · exact facts.2.1 isPrefix
    have safe : ¬ DangerousInit words := by
      rintro (option | command)
      · rw [shape, List.cons_prefix_cons] at option
        rcases first with same | isPrefix
        · exact absurd (option.1.trans same) (by decide)
        · rw [← option.1] at isPrefix
          exact absurd isPrefix (by decide)
      · exact losable.safe command
    have before : ((linesOf (extended chars content)).map activeWords).count words ≤ _ :=
      (count_extended_le fresh).trans (count_addHook_le some fresh)
    have stripped : (((linesOf (extended chars content)).map (stripLine chars)).map
        activeWords).count words ≤
          ((linesOf (extended chars content)).map activeWords).count words := count_strip_le some
    rw [← linesOf_patchInit] at fewer
    exact not_cleared_of_fewer some safe (by omega) cleared

/-- The patch defuses exactly the patchable texts. -/
theorem cleared_patchInit_iff :
    Cleared DangerousInit content (patchInit chars content) ↔ Patchable chars content := by
  constructor
  · intro cleared
    exact ⟨hook_of_cleared cleared, critical_of_cleared cleared, classStart_of_cleared cleared⟩
  · intro patchable
    unfold Cleared
    rw [activeLines_patchInit patchable]
    refine ⟨fun line member => ?_, (kept_extended patchable.hook).filter _⟩
    simpa using (List.mem_filter.mp member).2

end Patch

/-- Both scripts. -/
theorem patch_cleared_iff (chars : WordChars) (init hardware : List Char) :
    (Cleared DangerousInit init (patchInit chars init) ∧
        Cleared startWatchdog.Dangerous hardware (patchHardware chars hardware)) ↔
      Patchable chars init ∧ startWatchdog.Harmless chars false (linesOf hardware) :=
  and_congr cleared_patchInit_iff (Directive.cleared_commentOut_iff hardware)

/-- The command behind a blank line. -/
def spacedInit : List Char := "on boot\n\n    class_start main\n".toList

/-- The blank line becomes the comment, and the command stays active. -/
theorem spacedInit_not_cleared :
    ¬ Cleared DangerousInit spacedInit (patchInit asciiWords spacedInit) := by decide +kernel

end Nookobo.Boot
