import Mathlib.Data.List.Infix
import Nookobo.Boot.Insertions
import Nookobo.Semantics.Run

/-!
# Disabling services

The loop of `patch_boot.sh` over the services that the Linux system does without. For each name
the first line that begins with `service`, the name and a word edge is searched for, and unless
`disabled` stands in the paragraph of the 200 characters from there, it is put behind that line.
-/

namespace Nookobo.Boot

open Nookobo.Text Nookobo.Semantics

/-! ## The loop -/

/-- The services that are not to run. -/
def servicesToDisable : List (List Char) :=
  ["healthd".toList, "healthd-charger".toList, "servicemanager".toList, "vold".toList,
    "watchdogd".toList, "surfaceflinger".toList, "zygote".toList, "installd".toList,
    "netd".toList, "debuggerd".toList, "drm".toList, "media".toList, "bootanim".toList,
    "keystore".toList]

/-- `^service\s+name\b`. -/
def servicePattern (name : List Char) : List Item :=
  [.lineStart, .literal service, .blanks 1, .literal name, .wordEdge]

/-- `text.split('\n\n')[0]`. -/
def firstParagraph : List Char → List Char
  | '\n' :: '\n' :: _ => []
  | char :: rest => char :: firstParagraph rest
  | [] => []

/-- One iteration: the option behind the first line the pattern finds, unless it is there
already. -/
def disableService (chars : WordChars) (content name : List Char) : List Char :=
  match search chars (servicePattern name) content with
  | none => content
  | some found =>
      let rest := content.drop found.front.length
      let sub := rest.take 200
      let firstLine := sub.takeWhile (· ≠ '\n')
      if disabled <:+: firstParagraph sub then content
      else
        found.front ++ firstLine ++ "\n    disabled".toList ++ rest.drop firstLine.length

/-- The loop, one service a step. -/
def disabler (chars : WordChars) : Machine (List Char) (List Char) where
  initial := []
  step := disableService chars

/-- All of the services, in the order of the list. -/
def disableServices (chars : WordChars) (content : List Char) : List Char :=
  (disabler chars).run content servicesToDisable

/-! ## What it is for -/

/-- Each of the names that is defined once is disabled, and nothing else has happened. -/
structure ServicesDisabled (names : List (List Char)) (input output : List Char) : Prop where
  others : List.Forall₂ (Kept servicesToDisable) (sections input) (sections output)
  disabled : ∀ name ∈ names, DefinedOnce input name → DisabledIn output name

/-- The line behind whose beginning an iteration puts the option, if it does. -/
def disablesAt (chars : WordChars) (content name : List Char) : Option (List Char) :=
  (search chars (servicePattern name) content).bind fun found =>
    let rest := content.drop found.front.length
    if disabled <:+: firstParagraph (rest.take 200) then none
    else some (rest.takeWhile (· ≠ '\n'))

/-- The condition on an iteration. -/
structure FindsOwn (chars : WordChars) (input content name : List Char) : Prop where
  fits : ∀ line ∈ disablesAt chars content name, Fits servicesToDisable line
  own : DefinedOnce input name → DisabledIn content name ∨
    ∃ line ∈ disablesAt chars content name, (activeWords line).take 2 = [service, name]

instance (text name : List Char) : Decidable (DefinedOnce text name) :=
  inferInstanceAs (Decidable (_ = _))

instance (text name : List Char) : Decidable (DisabledIn text name) :=
  inferInstanceAs (Decidable (∃ section_ ∈ _, _))

/-! ## Where a service is found -/

section Found

variable {chars : WordChars} {name line : List Char} {back : List (List Char)}

/-- What the names have in common: visible, no comments, ending in a character of a word. -/
theorem names_visible : ∀ name ∈ servicesToDisable, name ≠ [] ∧ name.head? ≠ some '#' ∧
    name.all (fun char => isBlank char = false) = true ∧
    name.getLast?.any (fun char => char.toNat < 128 && char.isAlphanum) = true := by
  decide +kernel

/-- A name ends in a character of a word, whatever else is one. -/
theorem ends_names (chars : WordChars) (listed : name ∈ servicesToDisable) :
    ∃ last, name.getLast? = some last ∧ chars.isWord last = true := by
  obtain ⟨_, _, _, ends⟩ := names_visible name listed
  obtain ⟨last, is, low⟩ := (Option.any_eq_true _ _).mp ends
  rw [Bool.and_eq_true, decide_eq_true_eq] at low
  refine ⟨last, is, ?_⟩
  rw [chars.ascii last low.1, low.2]
  rfl

/-- What a match says about the line where it begins. -/
theorem begun_of_match (listed : name ∈ servicesToDisable) {parts : List (List Char)}
    (hit : matchAt chars (servicePattern name) '\n' (joinLines (line :: back)) = some parts) :
    Begun line ∧
      ∀ other, (activeWords line).take 2 = [service, other] → name <+: other := by
  obtain ⟨some, noMark, all, _⟩ := names_visible name listed
  have visible : ∀ char ∈ name, isBlank char = false := List.all_iff_forall_prop.mp all
  obtain ⟨last, ends, inWord⟩ := ends_names chars listed
  have serviceEnds : service.getLast? = Option.some 'e' := by decide
  rw [joinLines_cons] at hit
  unfold matchAt servicePattern at hit
  rw [parses_lineStart, if_pos rfl, parses_literal serviceEnds] at hit
  split at hit
  case isFalse => cases hit
  next begins =>
  rw [parses_blanks some visible] at hit
  split at hit
  case isFalse => cases hit
  next gap =>
  rw [parses_word ends inWord] at hit
  split at hit
  case isFalse => cases hit
  next starts =>
  have atBreak := head_behindLine back
  obtain ⟨rest, rfl⟩ := (prefix_line (lineBreak_notMem service_visible) atBreak).mp begins
  rw [List.append_assoc, List.drop_left] at gap starts
  have apart : ∀ char ∈ rest.head?, isBlank char = true := by
    cases rest with
    | nil => nofun
    | cons char rest =>
        rintro _ ⟨⟩
        by_contra visibleChar
        rw [List.cons_append, List.takeWhile_cons_of_neg visibleChar] at gap
        cases gap
  refine ⟨⟨rest, rfl, apart⟩, ?_⟩
  intro other second
  rw [activeWords_service apart] at second
  cases blank : isBlankLine rest with
  | true =>
      rw [activeWords_of_blank blank] at second
      cases second
  | false =>
      have begins : beginsWith chars name (rest ++ behindLine back) = true := starts
      rw [begins_visible visible blank atBreak] at begins
      obtain ⟨words, inWord⟩ := activeWords_of_begins some noMark visible begins
      rw [words] at second
      cases second
      exact inWord

/-- The first line of a text of lines. -/
theorem takeWhile_line (proper : '\n' ∉ line) (back : List (List Char)) :
    (joinLines (line :: back)).takeWhile (· ≠ '\n') = line := by
  have inLine : ∀ char ∈ line, decide (char ≠ '\n') = true := by
    intro char member
    rw [decide_eq_true_eq]
    rintro rfl
    exact proper member
  rw [joinLines_cons, List.takeWhile_append_of_pos inLine]
  unfold behindLine
  split
  · exact List.append_nil line
  · exact List.append_nil line

/-- What the iteration makes of the text from the line on. -/
theorem insert_joinLines (line : List Char) (back : List (List Char)) :
    line.take 200 ++ "\n    disabled".toList ++
        (joinLines (line :: back)).drop (line.take 200).length =
      joinLines (line.take 200 :: (disabledLine ++ line.drop 200) :: back) := by
  have split : joinLines (line :: back) = line.take 200 ++ (line.drop 200 ++ behindLine back) := by
    rw [joinLines_cons, ← List.append_assoc, List.take_append_drop]
  have lineBreak : "\n    disabled".toList = '\n' :: disabledLine := rfl
  rw [split, List.drop_left, joinLines_cons, behindLine_of_ne_nil (List.cons_ne_nil _ _),
    joinLines_cons, lineBreak, List.append_assoc, List.append_assoc]
  rfl

/-- An iteration leaves the text as it is or puts the option behind the beginning of a line. -/
theorem disableService_joinLines (chars : WordChars) (listed : name ∈ servicesToDisable)
    {lines : List (List Char)} (proper : Proper lines) (some : lines ≠ []) :
    (disablesAt chars (joinLines lines) name = none ∧
        disableService chars (joinLines lines) name = joinLines lines) ∨
      ∃ front line back, lines = front ++ line :: back ∧
        disablesAt chars (joinLines lines) name = .some line ∧
        disableService chars (joinLines lines) name =
          joinLines (front ++ line.take 200 :: (disabledLine ++ line.drop 200) :: back) ∧
        Begun line ∧ ∀ other, (activeWords line).take 2 = [service, other] → name <+: other := by
  unfold disablesAt disableService
  cases finds : search chars (servicePattern name) (joinLines lines) with
  | none => exact .inl ⟨rfl, rfl⟩
  | some found =>
      obtain ⟨front, line, back, rfl, ahead, hit⟩ := search_joinLines proper some finds
      have goesOn : line :: back ≠ [] := List.cons_ne_nil _ _
      have here : '\n' ∉ line := proper line (List.mem_append_right _ List.mem_cons_self)
      have rest : (joinLines (front ++ line :: back)).drop found.front.length =
          joinLines (line :: back) := by
        rw [joinLines_append front goesOn, ← ahead, List.drop_left]
      have firstLine : ((joinLines (line :: back)).take 200).takeWhile (· ≠ '\n') =
          line.take 200 := by
        rw [← List.take_takeWhile, takeWhile_line here]
      simp only [Option.bind_some, rest, firstLine, takeWhile_line here]
      split
      · exact .inl ⟨rfl, rfl⟩
      · refine .inr ⟨front, line, back, rfl, rfl, ?_, begun_of_match listed hit⟩
        have grown := insert_joinLines line back
        rw [joinLines_append front (List.cons_ne_nil _ _), ← grown, ahead]
        simp only [List.append_assoc]

end Found

/-! ## Iterations -/

section Iterations

variable {chars : WordChars} {input content name : List Char} {marks : List Mark}

/-- The text is what has become of the input. -/
structure Shows (input content : List Char) (marks : List Mark) : Prop where
  lines : marks.map Mark.line = linesOf input
  text : content = joinLines (expandAll marks)
  begun : AllBegun marks

/-- The options stand where they do no damage. -/
def AllFit (marks : List Mark) : Prop :=
  ∀ mark ∈ marks, 0 < mark.count → Fits servicesToDisable mark.line

/-- At the start no option has been put anywhere. -/
theorem not_put_start (input : List Char) :
    ∀ mark ∈ (linesOf input).map (⟨·, 0⟩ : List Char → Mark), ¬ 0 < mark.count := by
  intro mark member
  obtain ⟨line, _, rfl⟩ := List.mem_map.mp member
  exact Nat.lt_irrefl 0

/-- At the start the text shows itself. -/
theorem shows_start (input : List Char) : Shows input input ((linesOf input).map (⟨·, 0⟩)) where
  lines := by
    rw [List.map_map]
    exact List.map_id _
  text := by
    have same : expandAll ((linesOf input).map (⟨·, 0⟩)) = linesOf input := by
      unfold expandAll
      rw [List.flatMap_map]
      exact List.flatMap_singleton' _
    rw [same, joinLines_linesOf]
  begun mark member put := absurd put (not_put_start input mark member)

/-- A text has a line. -/
theorem Shows.some (shows : Shows input content marks) : marks ≠ [] := by
  rintro rfl
  exact linesOf_ne_nil input shows.lines.symm

/-- The lines a text shows have no line break in them. -/
theorem Shows.proper (shows : Shows input content marks) : Proper (expandAll marks) :=
  proper_expandAll (shows.lines ▸ proper_linesOf input)

/-- The sections of the input and of the text, by their marks. -/
theorem Shows.sections (shows : Shows input content marks) :
    Boot.sections input = sectionsFrom ⟨[], []⟩ (activeLines (marks.map Mark.line)) ∧
      Boot.sections content = sectionsFrom ⟨[], []⟩ (activeLines (expandAll marks)) := by
  unfold Boot.sections
  rw [shows.lines, shows.text, linesOf_joinLines shows.proper (expandAll_ne_nil shows.some)]
  exact ⟨rfl, rfl⟩

/-- All sections are kept exactly when the options do no damage. -/
theorem Shows.kept_iff (shows : Shows input content marks) :
    List.Forall₂ (Kept servicesToDisable) (Boot.sections input) (Boot.sections content) ↔
      AllFit marks := by
  rw [shows.sections.1, shows.sections.2, kept_sectionsFrom shows.begun]
  exact and_iff_right (Kept.refl _ _)

/-- A service is disabled in the text if it was in the input, or if an option was put behind it. -/
theorem Shows.disabledIn_iff (shows : Shows input content marks) (fits : AllFit marks) :
    DisabledIn content name ↔ DisabledIn input name ∨
      ∃ mark ∈ marks, 0 < mark.count ∧ (activeWords mark.line).take 2 = [service, name] := by
  have noExtra : Section.disables ⟨[], []⟩ name ↔ Section.disables ⟨[], []⟩ name ∨ False :=
    (or_iff_left id).symm
  have both := exists_disables_iff shows.begun fits False rfl noExtra
  rw [false_or, ← shows.sections.1, ← shows.sections.2] at both
  exact both

/-- A line that has lost its end fits as it did before. -/
theorem fits_shown_iff (mark : Mark) :
    Fits servicesToDisable mark.line ↔
      (0 < mark.count → Fits servicesToDisable mark.line) ∧ Fits servicesToDisable mark.shown := by
  by_cases put : 0 < mark.count
  · rw [imp_iff_right put, shown_of_put put, iff_self_and]
    rintro ⟨name, listed, _, still, _⟩
    have short : (mark.line.take 200).length ≤ 200 := List.length_take_le _ _
    refine ⟨name, listed, still, ?_, ?_⟩
    · rw [List.take_of_length_le short]
      exact still
    · rw [List.drop_of_length_le short]
      nofun
  · have whole : mark.shown = mark.line := by
      unfold Mark.shown
      split
      · rfl
      · omega
    rw [whole, and_iff_right (fun some => absurd some put)]

/-- What is left in a line that fits still names its service. -/
theorem words_shown {mark : Mark} (fits : Fits servicesToDisable mark.line) :
    (activeWords mark.shown).take 2 = (activeWords mark.line).take 2 := by
  obtain ⟨name, _, isDefined, still, _⟩ := fits
  unfold Mark.shown
  split
  · rfl
  · exact still.trans isDefined.symm

/-- One more option does no damage exactly when its line fits. -/
theorem allFit_again {before after : List Mark} (mark : Mark) :
    AllFit (before ++ mark.again :: after) ↔
      AllFit (before ++ mark :: after) ∧ Fits servicesToDisable mark.shown := by
  have put : 0 < mark.again.count := Nat.succ_pos _
  have line : Fits servicesToDisable mark.again.line ↔ _ := fits_shown_iff mark
  unfold AllFit
  rw [List.forall_mem_append, List.forall_mem_append, List.forall_mem_cons, List.forall_mem_cons,
    imp_iff_right put, line]
  tauto

/-- One more option disables one more service. -/
theorem exists_again {before after : List Mark} (mark : Mark) :
    (∃ other ∈ before ++ mark.again :: after,
        0 < other.count ∧ (activeWords other.line).take 2 = [service, name]) ↔
      (∃ other ∈ before ++ mark :: after,
        0 < other.count ∧ (activeWords other.line).take 2 = [service, name]) ∨
        (activeWords mark.line).take 2 = [service, name] := by
  have put : 0 < mark.again.count := Nat.succ_pos _
  have line : mark.again.line = mark.line := rfl
  simp only [List.mem_append, List.mem_cons, or_and_right, exists_or, exists_eq_left, line, put,
    true_and]
  have absorbed (first here later again : Prop) :
      first ∨ here ∨ later ↔ (first ∨ again ∧ here ∨ later) ∨ here := by tauto
  exact absorbed ..

/-- What an iteration does to the marks. -/
theorem disableService_shows (chars : WordChars) (listed : name ∈ servicesToDisable)
    (shows : Shows input content marks) :
    (disablesAt chars content name = none ∧ disableService chars content name = content) ∨
      ∃ before mark after, marks = before ++ mark :: after ∧
        disablesAt chars content name = .some mark.shown ∧
        Shows input (disableService chars content name) (before ++ mark.again :: after) ∧
        ∀ other, (activeWords mark.shown).take 2 = [service, other] → name <+: other := by
  have either := disableService_joinLines chars listed shows.proper (expandAll_ne_nil shows.some)
  rw [← shows.text] at either
  rcases either with same | ⟨front, line, back, split, found, grown, begun, second⟩
  · exact .inl same
  · obtain ⟨before, mark, after, rfl, rfl, rfl, rfl⟩ := expandAll_eq_append begun split
    refine .inr ⟨before, mark, after, rfl, found, ⟨?_, ?_, ?_⟩, second⟩
    · rw [← shows.lines, List.map_append, List.map_append]
      rfl
    · rw [grown, expandAll_append, expandAll_cons, expand_again]
      rfl
    · have original := shows.begun
      unfold AllBegun at original ⊢
      rw [List.forall_mem_append, List.forall_mem_cons] at original ⊢
      refine ⟨original.1, fun _ => ?_, original.2.2⟩
      by_cases put : 0 < mark.count
      · exact original.2.1 put
      · unfold Mark.shown at begun
        split at begun
        · exact begun
        · omega

/-- Exactness for one iteration: the names done so far keep being disabled, and the next one is
done, exactly when the iteration finds its own. -/
theorem servicesDisabled_step (chars : WordChars) (listed : name ∈ servicesToDisable)
    {done : List (List Char)} (fresh : ∀ earlier ∈ done, ¬ name <+: earlier)
    (shows : Shows input content marks) :
    (∃ next, Shows input (disableService chars content name) next) ∧
      (ServicesDisabled (done ++ [name]) input (disableService chars content name) ↔
        ServicesDisabled done input content ∧ FindsOwn chars input content name) := by
  rcases disableService_shows chars listed shows with
    ⟨none, same⟩ | ⟨before, mark, after, rfl, found, next, second⟩
  · rw [same]
    refine ⟨⟨marks, shows⟩, ?_⟩
    constructor
    · rintro ⟨others, disabled⟩
      obtain ⟨earlier, last⟩ := List.forall_mem_append.mp disabled
      refine ⟨⟨others, earlier⟩, ?_, fun once => .inl (last name List.mem_cons_self once)⟩
      rw [none]
      nofun
    · rintro ⟨⟨others, disabled⟩, own⟩
      refine ⟨others, List.forall_mem_append.mpr ⟨disabled, ?_⟩⟩
      rw [List.forall_mem_singleton]
      intro once
      rcases own.own once with already | ⟨line, here, _⟩
      · exact already
      · rw [none] at here
        cases here
  · refine ⟨⟨_, next⟩, ?_⟩
    have grows (fits : AllFit (before ++ mark.again :: after)) (other : List Char) :
        DisabledIn (disableService chars content name) other ↔
          DisabledIn content other ∨ (activeWords mark.shown).take 2 = [service, other] := by
      have fitsBefore := (allFit_again mark).mp fits
      have fitsMark : Fits servicesToDisable mark.line :=
        fits mark.again (List.mem_append_right _ List.mem_cons_self) (Nat.succ_pos _)
      rw [next.disabledIn_iff fits, exists_again, shows.disabledIn_iff fitsBefore.1,
        words_shown fitsMark, or_assoc]
    constructor
    · rintro ⟨others, disabled⟩
      obtain ⟨earlier, last⟩ := List.forall_mem_append.mp disabled
      have fits := next.kept_iff.mp others
      have fitsBefore := (allFit_again mark).mp fits
      refine ⟨⟨shows.kept_iff.mpr fitsBefore.1, ?_⟩, ?_, ?_⟩
      · intro other isDone once
        refine ((grows fits other).mp (earlier other isDone once)).resolve_right fun same => ?_
        exact fresh other isDone (second other same)
      · rw [found]
        rintro _ ⟨⟩
        exact fitsBefore.2
      · intro once
        rw [found]
        refine ((grows fits name).mp (last name List.mem_cons_self once)).imp_right fun same => ?_
        exact ⟨_, rfl, same⟩
    · rintro ⟨⟨others, disabled⟩, own⟩
      have fits := (allFit_again mark).mpr ⟨shows.kept_iff.mp others, own.fits _ found⟩
      refine ⟨next.kept_iff.mpr fits, List.forall_mem_append.mpr ⟨?_, ?_⟩⟩
      · intro other isDone once
        exact (grows fits other).mpr (.inl (disabled other isDone once))
      · rw [List.forall_mem_singleton]
        intro once
        refine (grows fits name).mpr ((own.own once).imp_right ?_)
        rw [found]
        rintro ⟨_, ⟨⟩, same⟩
        exact same

/-- Over a run: no name is a beginning of an earlier one. -/
theorem servicesDisabled_run (chars : WordChars) {names done : List (List Char)}
    (listed : ∀ name ∈ names, name ∈ servicesToDisable)
    (fresh : (done ++ names).Pairwise fun earlier later => ¬ later <+: earlier)
    (shows : Shows input content marks) :
    ServicesDisabled (done ++ names) input ((disabler chars).run content names) ↔
      ServicesDisabled done input content ∧
        (disabler chars).StepsMeet (FindsOwn chars input) content names := by
  induction names generalizing content marks done with
  | nil =>
      rw [List.append_nil]
      exact (and_iff_left trivial).symm
  | cons name names ih =>
      obtain ⟨here, later⟩ := List.forall_mem_cons.mp listed
      have apart : ∀ earlier ∈ done, ¬ name <+: earlier := fun earlier isDone =>
        (List.pairwise_append.mp fresh).2.2 earlier isDone name List.mem_cons_self
      obtain ⟨⟨next, showsNext⟩, step⟩ := servicesDisabled_step chars here apart shows
      rw [List.append_cons] at fresh ⊢
      rw [Machine.run_cons]
      exact (ih later fresh showsNext).trans ((and_congr_left' step).trans and_assoc)

end Iterations

/-- Exactness: the services end up disabled, and nothing else happens, exactly when each
iteration finds its own. -/
theorem servicesDisabled_iff (chars : WordChars) (input : List Char) :
    ServicesDisabled servicesToDisable input (disableServices chars input) ↔
      (disabler chars).StepsMeet (FindsOwn chars input) input servicesToDisable := by
  have shows := shows_start input
  have fits : AllFit ((linesOf input).map (⟨·, 0⟩)) :=
    fun mark member put => absurd put (not_put_start input mark member)
  have start : ServicesDisabled [] input input := ⟨shows.kept_iff.mpr fits, nofun⟩
  have fresh : servicesToDisable.Pairwise fun earlier later => ¬ later <+: earlier := by
    decide +kernel
  have whole : ServicesDisabled ([] ++ servicesToDisable) input _ ↔ _ ∧ _ :=
    servicesDisabled_run chars (fun _ => id) fresh shows
  exact whole.trans (and_iff_right start)

/-- The pattern for `healthd` finds `healthd-charger` too. -/
def twoHealthd : List Char :=
  "service healthd-charger /sbin/healthd -c
    class charger

service healthd /sbin/healthd
    class core
".toList

/-- With `healthd-charger` first, `healthd` is not disabled. -/
theorem twoHealthd_not_disabled :
    ¬ ServicesDisabled servicesToDisable twoHealthd (disableServices asciiWords twoHealthd) := by
  intro all
  exact absurd (all.disabled "healthd".toList (by decide) (by decide +kernel)) (by decide +kernel)

end Nookobo.Boot
