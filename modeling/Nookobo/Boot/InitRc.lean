import Mathlib.Data.List.Infix
import Nookobo.Boot.Harmless

/-!
# Patching `init.rc`

`patch_boot.sh` rewrites the init scripts of the ramdisk with regular expressions: it hooks the
bootstrapper into `on post-fs-data`, appends a service for it, strips `critical` options, and
keeps `class_start main` and, in `init.hw.rc`, `start watchdogd` from being run.
-/

namespace Nookobo.Boot

open Nookobo.Text

/-! ## The steps -/

/-- The lines put in place of the trigger. -/
def hook : List Char :=
  "on post-fs-data
    copy /boot_linux.sh /data/boot_linux.sh
    chmod 0755 /data/boot_linux.sh
    start boot_linux
    # exec /system/bin/sh /data/boot_linux.sh".toList

/-- The trigger the hook is put at. -/
def trigger : List Char := "on post-fs-data".toList

/-- `^on post-fs-data\b`. -/
def hookPattern : List Item := [.lineStart, .literal trigger, .wordEdge]

/-- `init.rc` with the hook, unless it has one already. -/
def addHook (chars : WordChars) (content : List Char) : List Char :=
  if "boot_linux".toList <:+: content then content
  else substituteFirst chars hookPattern (fun _ => hook) content

/-- The service definition put at the end. -/
def svc : List Char :=
  "
# Standalone Linux Bootstrapper Service
service boot_linux /system/bin/sh /data/boot_linux.sh
    class core
    user root
    group root
    disabled
    oneshot
".toList

/-- `init.rc` with the service, unless it has one already. -/
def addService (content : List Char) : List Char :=
  if "service boot_linux".toList <:+: content then content else content ++ svc

/-- The directive of a service whose failures reboot the device into recovery. -/
def critical : List Char := "critical".toList

/-- What is put in place of `critical`. -/
def strippedNote : List Char := "# critical # Stripped to prevent recovery reboot".toList

/-- `^(\s*)critical\b`. -/
def criticalPattern : List Item := [.lineStart, .blanks 0, .literal critical, .wordEdge]

/-- `re.sub(r"^(\s*)critical\b", r"\1# critical # Stripped to prevent recovery reboot", ...)`. -/
def stripCritical (chars : WordChars) (content : List Char) : List Char :=
  substitute chars criticalPattern (fun parts => parts.getD 1 [] ++ strippedNote) content

/-- `class_start main`, the Android runtime. -/
def classStart : Directive where
  command := "class_start".toList
  argument := "main".toList
  note := " # Bypassed for standalone Linux".toList
  command_visible := List.all_iff_forall_prop.mp (by decide)
  argument_visible := List.all_iff_forall_prop.mp (by decide)
  command_start := ⟨'c', "lass_start".toList, by decide, by decide⟩
  argument_start := ⟨'m', "ain".toList, by decide, by decide⟩
  argument_end := ⟨'n', by decide, by decide, by decide⟩
  note_comment := ⟨" Bypassed for standalone Linux".toList, by decide⟩
  note_line := by decide
  apart := by decide

/-- `start watchdogd`. -/
def startWatchdog : Directive where
  command := "start".toList
  argument := "watchdogd".toList
  note := " # Disabled for standalone Linux".toList
  command_visible := List.all_iff_forall_prop.mp (by decide)
  argument_visible := List.all_iff_forall_prop.mp (by decide)
  command_start := ⟨'s', "tart".toList, by decide, by decide⟩
  argument_start := ⟨'w', "atchdogd".toList, by decide, by decide⟩
  argument_end := ⟨'d', by decide, by decide, by decide⟩
  note_comment := ⟨" Disabled for standalone Linux".toList, by decide⟩
  note_line := by decide
  apart := by decide

/-- What becomes of `init.rc`. -/
def patchInit (chars : WordChars) (content : List Char) : List Char :=
  classStart.commentOut chars (stripCritical chars (addService (addHook chars content)))

/-- What becomes of `init.hw.rc`. -/
def patchHardware (chars : WordChars) (content : List Char) : List Char :=
  startWatchdog.commentOut chars content

/-! ## Stripping `critical` -/

/-- `critical` has no blank in it. -/
theorem critical_visible : ∀ char ∈ critical, isBlank char = false :=
  List.all_iff_forall_prop.mp (by decide)

/-- `critical` is not a comment by itself. -/
theorem critical_noMark : critical.head? ≠ some '#' := by decide

/-- `critical` is a word. -/
theorem critical_ne_nil : critical ≠ [] := by decide

/-- What the substitution does to a line. -/
def stripLine (chars : WordChars) (line : List Char) : List Char :=
  if beginsWith chars critical line then
    line.takeWhile isBlank ++ strippedNote ++ (line.dropWhile isBlank).drop critical.length
  else line

/-- The rest of a text at whose beginning there is a match. -/
def strippedText (chars : WordChars) (text : List Char) : List Char :=
  text.takeWhile isBlank ++ strippedNote ++
    substituteFrom chars criticalPattern (fun parts => parts.getD 1 [] ++ strippedNote) 0 'l'
      ((text.dropWhile isBlank).drop critical.length)

section Strip

variable {chars : WordChars} {line : List Char} {more : List (List Char)}

/-- The pattern for `critical` matches where the text begins with the word, blanks aside. -/
theorem matchAt_critical (text : List Char) :
    matchAt chars criticalPattern '\n' text =
      if beginsWith chars critical text then some [[], text.takeWhile isBlank, critical, []]
      else none := by
  have inWord : chars.isWord 'l' = true := by
    rw [chars.ascii 'l' (by decide)]
    decide
  unfold matchAt criticalPattern beginsWith
  rw [parses_lineStart, if_pos rfl, parses_blanks critical_ne_nil critical_visible,
    if_pos (Nat.zero_le _), parses_word (by decide : critical.getLast? = some 'l') inWord]
  split <;> rfl

/-- At a match the note is put in, and the search goes on behind it. -/
theorem stripCritical_of_begins {text : List Char}
    (starts : beginsWith chars critical text = true) :
    stripCritical chars text = strippedText chars text := by
  have found : matchAt chars criticalPattern '\n' text = _ := matchAt_critical text
  rw [if_pos starts] at found
  obtain ⟨tail, split⟩ := prefix_of_begins starts
  have whole : text = List.flatten [[], text.takeWhile isBlank, critical, []] ++
      (text.dropWhile isBlank).drop critical.length := by
    simp only [List.flatten_cons, List.flatten_nil, List.nil_append, List.append_nil]
    rw [← split, List.drop_left, List.append_assoc, split, List.takeWhile_append_dropWhile]
  have ends : (List.flatten [[], text.takeWhile isBlank, critical, []]).getLast? = some 'l' := by
    simp only [List.flatten_cons, List.flatten_nil, List.nil_append, List.append_nil,
      List.getLast?_append]
    rfl
  exact substitute_of_match found whole ends

/-- The text behind a line. -/
def strippedBehind (chars : WordChars) (rest : List Char) : List Char :=
  substituteBehind chars criticalPattern (fun parts => parts.getD 1 [] ++ strippedNote) rest

/-- A blank line ahead of a match is passed over as it is. -/
theorem strippedText_behindBlank (blank : isBlankLine line = true) (some : more ≠ []) :
    strippedText chars (line ++ behindLine more) =
      line ++ '\n' :: strippedText chars (joinLines more) := by
  unfold strippedText
  rw [takeWhile_blankLine blank, dropWhile_blankLine blank, behindLine_of_ne_nil some,
    List.takeWhile_cons_of_pos isBlank_lineBreak, List.dropWhile_cons_of_pos isBlank_lineBreak]
  simp only [List.append_assoc, List.cons_append]

/-- A match in the first line leaves its mark there, and the rest is searched from its end. -/
theorem strippedText_visible (starts : beginsWith chars critical line = true)
    (proper : '\n' ∉ line) (rest : List Char) :
    strippedText chars (line ++ rest) = stripLine chars line ++ strippedBehind chars rest := by
  have visible := visible_of_begins critical_ne_nil starts
  have tail : '\n' ∉ (line.dropWhile isBlank).drop critical.length :=
    fun member => proper ((List.dropWhile_sublist _).subset (List.mem_of_mem_drop member))
  unfold strippedText stripLine strippedBehind
  rw [takeWhile_visibleLine visible, dropWhile_visibleLine visible,
    List.drop_append_of_le_length (prefix_of_begins starts).length_le, criticalPattern,
    substituteFrom_inside tail (by decide), if_pos starts]
  simp only [List.append_assoc]

/-- A blank line is left as it is. -/
theorem stripLine_of_blank (blank : isBlankLine line = true) : stripLine chars line = line := by
  unfold stripLine
  rw [begins_of_blank critical_ne_nil blank, if_neg Bool.false_ne_true]

/-- A line, and what the substitution makes of the lines behind it. -/
theorem strippedBehind_joinLines
    (next : stripCritical chars (joinLines more) = joinLines (more.map (stripLine chars)))
    (line : List Char) :
    line ++ strippedBehind chars (behindLine more) =
      joinLines (line :: more.map (stripLine chars)) := by
  rw [joinLines_cons]
  by_cases last : more = []
  · rw [last]
    rfl
  · have some : more.map (stripLine chars) ≠ [] := fun empty => last (List.map_eq_nil_iff.mp empty)
    rw [behindLine_of_ne_nil last, behindLine_of_ne_nil some, ← next]
    rfl

/-- The substitution works on each line by itself, blank lines in front or not. -/
theorem stripCritical_joinLines {lines : List (List Char)} (proper : Proper lines) :
    stripCritical chars (joinLines lines) = joinLines (lines.map (stripLine chars)) := by
  induction lines with
  | nil => rfl
  | cons line more ih =>
      obtain ⟨here, later⟩ := List.forall_mem_cons.mp proper
      have next := ih later
      have ofNone : beginsWith chars critical (line ++ behindLine more) = false →
          stripCritical chars (line ++ behindLine more) =
            line ++ strippedBehind chars (behindLine more) := by
        intro noStart
        refine substitute_of_none here (head_behindLine more) ?_
        have noMatch : matchAt chars criticalPattern '\n' _ = _ :=
          matchAt_critical (line ++ behindLine more)
        rwa [noStart, if_neg Bool.false_ne_true] at noMatch
      rw [joinLines_cons, List.map_cons]
      cases blank : isBlankLine line with
      | true =>
          rw [stripLine_of_blank blank, ← strippedBehind_joinLines next]
          by_cases last : more = []
          · subst last
            refine ofNone ?_
            rw [behindLine_nil, List.append_nil]
            exact begins_of_blank critical_ne_nil blank
          · cases starts : beginsWith chars critical (joinLines more) with
            | true =>
                have here : beginsWith chars critical (line ++ behindLine more) = true := by
                  rw [begins_behindBlank blank last, starts]
                rw [stripCritical_of_begins here, strippedText_behindBlank blank last,
                  ← stripCritical_of_begins starts, behindLine_of_ne_nil last]
                rfl
            | false =>
                refine ofNone ?_
                rw [begins_behindBlank blank last, starts]
      | false =>
          have same : beginsWith chars critical (line ++ behindLine more) =
              beginsWith chars critical line :=
            begins_visible critical_visible blank (head_behindLine more)
          cases starts : beginsWith chars critical line with
          | true =>
              rw [stripCritical_of_begins (same.trans starts), strippedText_visible starts here,
                strippedBehind_joinLines next]
          | false =>
              have kept : stripLine chars line = line := by
                unfold stripLine
                rw [starts, if_neg Bool.false_ne_true]
              rw [ofNone (same.trans starts), kept, strippedBehind_joinLines next]

/-- The substitution puts no line break into a line. -/
theorem proper_stripLine (proper : '\n' ∉ line) : '\n' ∉ stripLine chars line := by
  unfold stripLine
  split
  · simp only [List.mem_append, not_or]
    exact ⟨⟨fun member => proper ((List.takeWhile_sublist _).subset member), by decide⟩,
      fun member => proper ((List.dropWhile_sublist _).subset (List.mem_of_mem_drop member))⟩
  · exact proper

/-- Stripping `critical` works line by line. -/
theorem linesOf_stripCritical (text : List Char) :
    linesOf (stripCritical chars text) = (linesOf text).map (stripLine chars) := by
  have proper := proper_linesOf text
  have properAfter : Proper ((linesOf text).map (stripLine chars)) := by
    intro line member
    obtain ⟨old, isOld, rfl⟩ := List.mem_map.mp member
    exact proper_stripLine (proper old isOld)
  have some : (linesOf text).map (stripLine chars) ≠ [] :=
    fun empty => linesOf_ne_nil text (List.map_eq_nil_iff.mp empty)
  have joined : stripCritical chars _ = _ := stripCritical_joinLines proper
  rw [joinLines_linesOf] at joined
  rw [joined, linesOf_joinLines properAfter some]

/-- A line that the substitution touches becomes a comment. -/
theorem activeWords_stripLine :
    activeWords (stripLine chars line) =
      if beginsWith chars critical line then [] else activeWords line := by
  unfold stripLine
  split
  · have allBlank : ∀ char ∈ line.takeWhile isBlank, isBlank char = true :=
      fun _ member => List.mem_takeWhile_imp member
    rw [List.append_assoc]
    exact activeWords_comment allBlank _
  · rfl

end Strip

/-! ## The hook -/

/-- The commands of the hook. -/
def hookCommands : List (List Char) :=
  ["on post-fs-data".toList, "    copy /boot_linux.sh /data/boot_linux.sh".toList,
    "    chmod 0755 /data/boot_linux.sh".toList, "    start boot_linux".toList]

/-- The hook's last line, which takes what stood behind the trigger. -/
def hookComment : List Char := "    # exec /system/bin/sh /data/boot_linux.sh".toList

/-- What the hook does to the lines: the first one with the trigger makes room for the
commands, and what stands behind the trigger goes into the comment. -/
def hookLines (chars : WordChars) : List (List Char) → List (List Char)
  | [] => []
  | line :: more =>
      if startsWord chars trigger line then
        hookCommands ++ (hookComment ++ line.drop trigger.length) :: more
      else line :: hookLines chars more

/-- The first line with the trigger has nothing else. -/
def HookFits (chars : WordChars) : List (List Char) → Prop
  | [] => True
  | line :: more =>
      if startsWord chars trigger line then
        activeWords line = ["on".toList, "post-fs-data".toList]
      else HookFits chars more

section Hook

variable {chars : WordChars} {line : List Char} {more : List (List Char)}

-- The literals are compared as lists of characters, without decoding their bytes.
set_option maxRecDepth 4000 in
/-- The hook, line by line. -/
theorem hook_spelled : hook = "on post-fs-data".toList ++ '\n' ::
    ("    copy /boot_linux.sh /data/boot_linux.sh".toList ++ '\n' ::
      ("    chmod 0755 /data/boot_linux.sh".toList ++ '\n' ::
        ("    start boot_linux".toList ++ '\n' :: hookComment))) := by
  have whole : hook = _ := String.toList_ofList
  have first : "on post-fs-data".toList = _ := String.toList_ofList
  have copy : "    copy /boot_linux.sh /data/boot_linux.sh".toList = _ := String.toList_ofList
  have chmod : "    chmod 0755 /data/boot_linux.sh".toList = _ := String.toList_ofList
  have start : "    start boot_linux".toList = _ := String.toList_ofList
  have comment : hookComment = _ := String.toList_ofList
  rw [whole, first, copy, chmod, start, comment]
  rfl

/-- The lines of the hook with what stood behind the trigger, and the lines behind it. -/
theorem joinLines_hook (behind : List Char) (more : List (List Char)) :
    joinLines (hookCommands ++ (hookComment ++ behind) :: more) =
      hook ++ behind ++ behindLine more := by
  unfold hookCommands
  simp only [List.cons_append, List.nil_append, joinLines_cons,
    behindLine_of_ne_nil (List.cons_ne_nil _ _), hook_spelled, List.append_assoc]

/-- The pattern for the trigger matches where the line begins with it. -/
theorem matchAt_hook {rest : List Char} (atBreak : ∀ char ∈ rest.head?, char = '\n') :
    matchAt chars hookPattern '\n' (line ++ rest) =
      if startsWord chars trigger line then some [[], trigger, []] else none := by
  have inWord : chars.isWord 'a' = true := by
    rw [chars.ascii 'a' (by decide)]
    decide
  unfold matchAt hookPattern
  rw [parses_lineStart, if_pos rfl, parses_word (by decide : trigger.getLast? = some 'a') inWord,
    startsWord_line (by decide) atBreak]
  split <;> rfl

/-- The hook removes no line. -/
theorem hookLines_ne_nil (some : more ≠ []) : hookLines chars more ≠ [] := by
  obtain ⟨line, rest, rfl⟩ := List.exists_cons_of_ne_nil some
  rw [hookLines]
  split
  · exact List.append_ne_nil_of_right_ne_nil _ (List.cons_ne_nil _ _)
  · exact List.cons_ne_nil _ _

/-- Over the lines of a text, the first match is the first line with the trigger. -/
theorem substituteFirst_joinLines {lines : List (List Char)} (proper : Proper lines)
    (some : lines ≠ []) :
    substituteFirst chars hookPattern (fun _ => hook) (joinLines lines) =
      joinLines (hookLines chars lines) := by
  induction lines with
  | nil => exact absurd rfl some
  | cons line more ih =>
      obtain ⟨here, later⟩ := List.forall_mem_cons.mp proper
      have found : matchAt chars hookPattern '\n' (line ++ behindLine more) = _ :=
        matchAt_hook (head_behindLine more)
      rw [joinLines_cons, hookLines]
      cases starts : startsWord chars trigger line with
      | true =>
          rw [starts, if_pos rfl] at found
          have fits : trigger.length ≤ line.length := by
            unfold startsWord at starts
            rw [Bool.and_eq_true] at starts
            exact (List.isPrefixOf_iff_prefix.mp starts.1).length_le
          have taken : (List.flatten [[], trigger, []]).length = trigger.length := rfl
          rw [if_pos rfl, joinLines_hook, substituteFirst_of_some found, taken,
            List.drop_append_of_le_length fits, List.append_assoc]
      | false =>
          rw [starts, if_neg Bool.false_ne_true] at found
          rw [if_neg Bool.false_ne_true, joinLines_cons]
          by_cases last : more = []
          · subst last
            rw [behindLine_nil, List.append_nil] at found ⊢
            rw [hookLines, behindLine_nil, List.append_nil]
            exact substituteFirst_last here found
          · rw [behindLine_of_ne_nil last] at found ⊢
            have kept : substituteFirst chars hookPattern (fun _ => hook)
                (line ++ '\n' :: joinLines more) =
                  line ++ '\n' :: substituteFirst chars hookPattern (fun _ => hook)
                    (joinLines more) := substituteFirst_of_none here found
            rw [kept, ih later last, behindLine_of_ne_nil (hookLines_ne_nil last)]

/-- The hook's lines have no line break in them. -/
theorem proper_hookLines {lines : List (List Char)} (proper : Proper lines) :
    Proper (hookLines chars lines) := by
  induction lines with
  | nil => exact proper
  | cons line more ih =>
      obtain ⟨here, later⟩ := List.forall_mem_cons.mp proper
      have commands : ∀ line ∈ hookCommands, '\n' ∉ line := by decide
      rw [hookLines]
      split
      · refine List.forall_mem_append.mpr ⟨commands, List.forall_mem_cons.mpr ⟨?_, later⟩⟩
        rw [List.mem_append, not_or]
        exact ⟨by decide, fun member => here (List.mem_of_mem_drop member)⟩
      · exact List.forall_mem_cons.mpr ⟨here, ih later⟩

/-- A line with the trigger is none of the lines of the other steps. -/
theorem firstWord_trigger (starts : startsWord chars trigger line = true) :
    isBlankLine line = false ∧ firstWord line = "on".toList ∧
      line.dropWhile isBlank = trigger ++ line.drop trigger.length := by
  unfold startsWord at starts
  rw [Bool.and_eq_true] at starts
  obtain ⟨rest, rfl⟩ := List.isPrefixOf_iff_prefix.mp starts.1
  have body : (trigger ++ rest).dropWhile isBlank = trigger ++ rest := rfl
  rw [List.drop_left]
  refine ⟨rfl, ?_, body⟩
  have shape : trigger ++ rest = "on".toList ++ (" post-fs-data".toList ++ rest) := by
    rw [← List.append_assoc]
    rfl
  rw [shape] at body ⊢
  refine (firstWord_of_word (List.all_iff_forall_prop.mp (by decide)) ?_ body).1
  rintro _ ⟨⟩
  decide

/-- Adding the hook works line by line. -/
theorem linesOf_addHook (content : List Char) :
    linesOf (addHook chars content) =
      if "boot_linux".toList <:+: content then linesOf content
      else hookLines chars (linesOf content) := by
  unfold addHook
  split
  · rfl
  · have proper := proper_linesOf content
    have some := linesOf_ne_nil content
    have joined : substituteFirst chars hookPattern (fun _ => hook) _ = _ :=
      substituteFirst_joinLines proper some
    rw [joinLines_linesOf] at joined
    rw [joined, linesOf_joinLines (proper_hookLines proper) (hookLines_ne_nil some)]

end Hook

/-- The lines of the service. -/
@[irreducible] def serviceLines : List (List Char) := linesOf svc.tail

/-- The same lines one by one. -/
def spelledLines : List (List Char) :=
  ["# Standalone Linux Bootstrapper Service".toList,
    "service boot_linux /system/bin/sh /data/boot_linux.sh".toList, "    class core".toList,
    "    user root".toList, "    group root".toList, "    disabled".toList,
    "    oneshot".toList, []]

set_option maxRecDepth 4000 in
/-- The service definition, line by line. -/
theorem svc_spelled : svc = '\n' :: joinLines spelledLines := by
  have whole : svc = _ := String.toList_ofList
  have title : "# Standalone Linux Bootstrapper Service".toList = _ := String.toList_ofList
  have opens : "service boot_linux /system/bin/sh /data/boot_linux.sh".toList = _ :=
    String.toList_ofList
  have core : "    class core".toList = _ := String.toList_ofList
  have user : "    user root".toList = _ := String.toList_ofList
  have group : "    group root".toList = _ := String.toList_ofList
  have disabled : "    disabled".toList = _ := String.toList_ofList
  have oneshot : "    oneshot".toList = _ := String.toList_ofList
  unfold spelledLines
  rw [whole, title, opens, core, user, group, disabled, oneshot]
  rfl

/-- The lines of the service definition as text and as spelled are the same. -/
theorem serviceLines_spelled : serviceLines = spelledLines := by
  have proper : Proper spelledLines := by
    unfold Proper
    decide
  unfold serviceLines
  rw [svc_spelled, List.tail_cons, linesOf_joinLines proper (List.cons_ne_nil _ _)]

/-- Adding the service adds its lines at the end, or nothing. -/
theorem linesOf_addService (content : List Char) :
    linesOf (addService content) =
      if "service boot_linux".toList <:+: content then linesOf content
      else linesOf content ++ serviceLines := by
  unfold addService
  split
  · rfl
  · have shape : svc = '\n' :: svc.tail := by rw [svc_spelled, List.tail_cons]
    unfold serviceLines
    rw [← linesOf_append, ← shape]

/-! ## What the added lines say -/

/-- The lines that are added. -/
def addedWords : List (List (List Char)) := (hookCommands ++ serviceLines).map activeWords

/-- None of them could be mistaken for a line that goes. -/
theorem first_addedWords : ∀ line ∈ addedWords, ∀ word ∈ line.head?,
    word ≠ classStart.command ∧ ¬ classStart.argument <+: word ∧ ¬ critical <+: word ∧
      (word = "on".toList → line = ["on".toList, "post-fs-data".toList]) := by
  unfold addedWords
  rw [serviceLines_spelled]
  decide +kernel

/-- The hook's last line is a comment. -/
theorem activeWords_hookComment (behind : List Char) : activeWords (hookComment ++ behind) = [] :=
  activeWords_comment Directive.blanks_mark _

section Added

variable {chars : WordChars} {words : List (List Char)}

/-- Words that neither hook nor service has do not occur in them. -/
theorem count_added (fresh : words ∉ addedWords) :
    (hookCommands.map activeWords).count words = 0 ∧
      (serviceLines.map activeWords).count words = 0 := by
  unfold addedWords at fresh
  rw [List.map_append, List.mem_append, not_or] at fresh
  exact ⟨List.count_eq_zero.mpr fresh.1, List.count_eq_zero.mpr fresh.2⟩

/-- The hook makes no other line more frequent. -/
theorem count_hookLines_le (some : words ≠ []) (fresh : words ∉ addedWords)
    (lines : List (List Char)) :
    ((hookLines chars lines).map activeWords).count words ≤
      (lines.map activeWords).count words := by
  induction lines with
  | nil => exact Nat.le_refl _
  | cons line more ih =>
      rw [hookLines]
      split
      · rw [List.map_append, List.count_append, (count_added fresh).1, List.map_cons,
          List.map_cons, activeWords_hookComment, List.count_cons, List.count_cons,
          if_neg (by simpa using some.symm)]
        omega
      · rw [List.map_cons, List.map_cons, List.count_cons, List.count_cons]
        omega

/-- A line that begins with the trigger begins with `on`. -/
theorem activeWords_trigger {line : List Char} (starts : startsWord chars trigger line = true) :
    ∃ rest, activeWords line = "on".toList :: rest := by
  obtain ⟨visible, first, _⟩ := firstWord_trigger starts
  have begins := words_of_visible visible
  rw [first] at begins
  exact ⟨_, activeWords_of_words begins (by decide)⟩

/-- A line with more than the trigger is lost. -/
theorem fewer_hookLines {lines : List (List Char)} (bad : ¬ HookFits chars lines) :
    ∃ rest, "on".toList :: rest ≠ ["on".toList, "post-fs-data".toList] ∧
      ((hookLines chars lines).map activeWords).count ("on".toList :: rest) <
        (lines.map activeWords).count ("on".toList :: rest) := by
  induction lines with
  | nil => exact absurd trivial bad
  | cons line more ih =>
      rw [HookFits] at bad
      rw [hookLines]
      split at bad
      · next starts =>
          obtain ⟨rest, begins⟩ := activeWords_trigger starts
          rw [begins] at bad
          have fresh : "on".toList :: rest ∉ addedWords := fun member =>
            bad ((first_addedWords _ member "on".toList rfl).2.2.2 rfl)
          refine ⟨rest, bad, ?_⟩
          rw [if_pos starts, List.map_append, List.count_append, (count_added fresh).1,
            List.map_cons, List.map_cons, activeWords_hookComment, begins, List.count_cons_self,
            List.count_cons_of_ne (List.cons_ne_nil _ _).symm]
          omega
      · next noStart =>
          obtain ⟨rest, other, fewer⟩ := ih bad
          refine ⟨rest, other, ?_⟩
          rw [if_neg noStart, List.map_cons, List.map_cons, List.count_cons, List.count_cons]
          omega

/-- Where the trigger stands alone, all lines are kept. -/
theorem kept_hookLines {lines : List (List Char)} (fits : HookFits chars lines) :
    List.Sublist (activeLines lines) (activeLines (hookLines chars lines)) := by
  unfold activeLines
  refine List.Sublist.filter _ ?_
  induction lines with
  | nil => exact List.Sublist.refl _
  | cons line more ih =>
      rw [HookFits] at fits
      rw [hookLines]
      split at fits
      · next starts =>
          have commands : hookCommands.map activeWords = ["on".toList, "post-fs-data".toList] ::
              (hookCommands.map activeWords).tail := by decide +kernel
          rw [if_pos starts, List.map_append, List.map_cons, fits, commands, List.cons_append]
          refine List.Sublist.cons_cons _ ?_
          rw [List.map_cons]
          exact (List.sublist_cons_self _ _).trans (List.sublist_append_right _ _)
      · next noStart =>
          rw [if_neg noStart, List.map_cons, List.map_cons]
          exact (ih fits).cons_cons _

end Added

end Nookobo.Boot
