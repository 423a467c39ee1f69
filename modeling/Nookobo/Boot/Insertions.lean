import Nookobo.Boot.Sections

/-!
# Options put behind a line

`disabled` is put behind the first 200 characters of a `service` line, perhaps more than once. A
`Mark` is a line of the original text with the number of times, and `Mark.expand` the lines that
have become of it, so that the sections of the new text are those of the old one with the
options put in: `kept_sectionsFrom` says which lines take them without damage, and
`disabledIn_expand` whom they disable.
-/

namespace Nookobo.Boot

open Nookobo.Text

/-- A line, and how often an option has been put behind its beginning. -/
structure Mark where
  line : List Char
  count : Nat

/-- The option that is put in. -/
def disabledLine : List Char := "    disabled".toList

namespace Mark

/-- What is left in the line. -/
def shown (mark : Mark) : List Char :=
  match mark.count with
  | 0 => mark.line
  | _ + 1 => mark.line.take 200

/-- The options, and the end of the line behind the one that was put first. -/
def behind (mark : Mark) : List (List Char) :=
  match mark.count with
  | 0 => []
  | count + 1 => List.replicate count disabledLine ++ [disabledLine ++ mark.line.drop 200]

/-- A line and the options behind it. -/
def expand (mark : Mark) : List (List Char) := mark.shown :: mark.behind

/-- The same with one more option. -/
def again (mark : Mark) : Mark := { mark with count := mark.count + 1 }

end Mark

/-- The lines of a file after the options have been put in. -/
def expandAll (marks : List Mark) : List (List Char) := marks.flatMap Mark.expand

/-- The line begins a service. -/
def Begun (line : List Char) : Prop :=
  ∃ rest, line = service ++ rest ∧ ∀ char ∈ rest.head?, isBlank char = true

/-- The line defines a listed service, in its first 200 characters too, and the option put behind
them is a word of its own. -/
def Fits (listed : List (List Char)) (line : List Char) : Prop :=
  ∃ name ∈ listed, (activeWords line).take 2 = [service, name] ∧
    (activeWords (line.take 200)).take 2 = [service, name] ∧
    ∀ char ∈ (line.drop 200).head?, isBlank char = true

/-! ## Lines -/

section Lines

variable {line : List Char} {mark : Mark}

/-- `service` has no blank in it. -/
theorem service_visible : ∀ char ∈ service, isBlank char = false :=
  List.all_iff_forall_prop.mp (by decide)

/-- The words of a line that begins with `service`. -/
theorem activeWords_service {rest : List Char} (apart : ∀ char ∈ rest.head?, isBlank char = true) :
    activeWords (service ++ rest) = service :: activeWords rest :=
  activeWords_of_words (words_word (by decide) service_visible apart) (by decide)

/-- A line that begins a service is a header. -/
theorem isHeader_of_begun (begun : Begun line) : isHeader (activeWords line) = true := by
  obtain ⟨rest, rfl, apart⟩ := begun
  rw [activeWords_service apart]
  rfl

/-- A header has words. -/
theorem ne_nil_of_isHeader {line : List (List Char)} (header : isHeader line = true) :
    line ≠ [] := by
  rintro rfl
  cases header

/-- The first 200 characters of a line that begins a service begin one too. -/
theorem begun_take (begun : Begun line) : Begun (line.take 200) := by
  obtain ⟨rest, rfl, apart⟩ := begun
  refine ⟨rest.take 193, List.take_append, ?_⟩
  cases rest with
  | nil => exact apart
  | cons char rest => exact apart

/-- What is left in the line begins a service when the line does. -/
theorem begun_shown (begun : Begun mark.line) : Begun mark.shown := by
  unfold Mark.shown
  split
  · exact begun
  · exact begun_take begun

/-- The first word of an option line, with what the rest of the old line adds to it. -/
theorem firstWord_disabledLine (rest : List Char) :
    firstWord (disabledLine ++ rest) = disabled ++ rest.takeWhile fun char => !isBlank char := by
  have body : (disabledLine ++ rest).dropWhile isBlank = disabled ++ rest := rfl
  have visible : ∀ char ∈ disabled, (!isBlank char) = true :=
    List.all_eq_true.mp (by decide)
  unfold firstWord
  rw [body, List.takeWhile_append_of_pos visible]

/-- The first word of an option that was put in. -/
theorem activeWords_disabledLine (rest : List Char) :
    ∃ more, activeWords (disabledLine ++ rest) =
      (disabled ++ rest.takeWhile fun char => !isBlank char) :: more := by
  have visible : isBlankLine (disabledLine ++ rest) = false := rfl
  have begins := words_of_visible visible
  have noMark : (firstWord (disabledLine ++ rest)).head? ≠ some '#' := by
    rw [firstWord_disabledLine]
    exact fun same => absurd (Option.some_inj.mp same) (by decide)
  rw [← firstWord_disabledLine]
  exact ⟨_, activeWords_of_words begins noMark⟩

/-- The option is read as `disabled` exactly when nothing is glued to it. -/
theorem isDisabled_disabledLine (rest : List Char) :
    isDisabled (activeWords (disabledLine ++ rest)) = true ↔
      ∀ char ∈ rest.head?, isBlank char = true := by
  obtain ⟨more, begins⟩ := activeWords_disabledLine rest
  unfold isDisabled
  rw [begins, List.head?_cons, decide_eq_true_eq, Option.some_inj, List.append_right_eq_self]
  cases rest with
  | nil => exact ⟨fun _ => nofun, fun _ => rfl⟩
  | cons char rest =>
      rw [List.takeWhile_cons]
      cases blank : isBlank char with
      | true =>
          refine ⟨fun _ next same => ?_, fun _ => rfl⟩
          cases same
          exact blank
      | false =>
          constructor
          · rintro ⟨⟩
          · intro all
            rw [all char rfl] at blank
            cases blank

/-- An option line has words and is no header. -/
theorem plain_disabledLine (rest : List Char) :
    activeWords (disabledLine ++ rest) ≠ [] ∧
      isHeader (activeWords (disabledLine ++ rest)) = false := by
  obtain ⟨more, begins⟩ := activeWords_disabledLine rest
  have others : ∀ word ∈ keywords, word.head? ≠ some 'd' := by decide
  rw [begins]
  refine ⟨List.cons_ne_nil _ _, ?_⟩
  unfold isHeader
  rw [List.head?_cons, Option.any_some, decide_eq_false_iff_not]
  exact fun member => others _ member rfl

/-- Each option put in is the plain one or carries the end of the old line. -/
theorem mem_behind {option : List Char} (member : option ∈ mark.behind) :
    ∃ rest, option = disabledLine ++ rest ∧ (rest = [] ∨ rest = mark.line.drop 200) := by
  unfold Mark.behind at member
  split at member
  · cases member
  · rw [List.mem_append, List.mem_singleton] at member
    rcases member with copy | last
    · rw [List.eq_of_mem_replicate copy]
      exact ⟨[], (List.append_nil _).symm, .inl rfl⟩
    · exact ⟨_, last, .inr rfl⟩

/-- Once an option is put in, the line shows its first 200 characters. -/
theorem shown_of_put (put : 0 < mark.count) : mark.shown = mark.line.take 200 := by
  unfold Mark.shown
  split
  · omega
  · rfl

/-- The option put in first carries the end of the old line. -/
theorem last_behind (put : 0 < mark.count) :
    disabledLine ++ mark.line.drop 200 ∈ mark.behind := by
  unfold Mark.behind
  split
  · omega
  · exact List.mem_append_right _ List.mem_cons_self

/-- None of the options put in is empty or a header. -/
theorem plain_behind :
    ∀ option ∈ mark.behind, activeWords option ≠ [] ∧ isHeader (activeWords option) = false := by
  intro option member
  obtain ⟨rest, rfl, _⟩ := mem_behind member
  exact plain_disabledLine rest

/-- One more option. -/
theorem expand_again (mark : Mark) :
    mark.again.expand =
      mark.shown.take 200 :: (disabledLine ++ mark.shown.drop 200) :: mark.behind := by
  obtain ⟨line, count⟩ := mark
  cases count with
  | zero => rfl
  | succ count =>
      have short : (line.take 200).length ≤ 200 := List.length_take_le _ _
      unfold Mark.expand Mark.again Mark.shown Mark.behind
      dsimp only
      rw [List.take_of_length_le short, List.drop_of_length_le short, List.append_nil,
        List.replicate_succ, List.cons_append]

end Lines

/-! ## Sections -/

section Sections

variable {listed : List (List Char)} {current current' : Section}

/-- The first line counts if it has words. -/
theorem activeLines_cons (line : List Char) (more : List (List Char)) :
    activeLines (line :: more) =
      if activeWords line = [] then activeLines more else activeWords line :: activeLines more := by
  unfold activeLines
  rw [List.map_cons]
  split
  · next empty => rw [List.filter_cons_of_neg (by simpa using empty)]
  · next some => rw [List.filter_cons_of_pos (by simpa using some)]

/-- Options behind a header belong to its section. -/
theorem sectionsFrom_options {options : List (List (List Char))}
    (plain : ∀ option ∈ options, isHeader option = false) (more : List (List (List Char))) :
    sectionsFrom current (options ++ more) =
      sectionsFrom ⟨current.header, current.options ++ options⟩ more := by
  induction options generalizing current with
  | nil => rw [List.nil_append, List.append_nil]
  | cons option options ih =>
      obtain ⟨first, later⟩ := List.forall_mem_cons.mp plain
      rw [List.cons_append, sectionsFrom, if_neg (by rw [first]; decide), ih later,
        List.append_assoc]
      rfl

/-- The section that begins with the line. -/
def Mark.newSection (mark : Mark) : Section :=
  ⟨activeWords mark.shown, mark.behind.map activeWords⟩

/-- Where a mark is shown, its section begins, with the options that were put in. -/
theorem sectionsFrom_expand {mark : Mark} (begun : Begun mark.line) (more : List (List Char)) :
    sectionsFrom current (activeLines (mark.expand ++ more)) =
      current :: sectionsFrom mark.newSection (activeLines more) := by
  have header := isHeader_of_begun (begun_shown begun)
  have some : activeWords mark.shown ≠ [] := ne_nil_of_isHeader header
  have options : activeLines (mark.behind ++ more) =
      mark.behind.map activeWords ++ activeLines more := by
    unfold activeLines
    rw [List.map_append, List.filter_append, List.filter_eq_self.mpr]
    intro option member
    obtain ⟨line, from_, rfl⟩ := List.mem_map.mp member
    exact decide_eq_true (plain_behind line from_).1
  have plain : ∀ option ∈ mark.behind.map activeWords, isHeader option = false := by
    intro option member
    obtain ⟨line, from_, rfl⟩ := List.mem_map.mp member
    exact (plain_behind line from_).2
  unfold Mark.expand
  rw [List.cons_append, activeLines_cons, if_neg some, options, sectionsFrom, if_pos header,
    sectionsFrom_options plain]
  rfl

/-- A section is kept by itself. -/
theorem Kept.refl (listed : List (List Char)) (section_ : Section) :
    Kept listed section_ section_ :=
  ⟨rfl, .inl rfl⟩

/-- One more option in both. -/
theorem kept_option (option : List (List Char)) :
    Kept listed ⟨current.header, current.options ++ [option]⟩
        ⟨current'.header, current'.options ++ [option]⟩ ↔
      Kept listed current current' := by
  constructor
  · rintro ⟨header, options⟩
    rw [List.append_left_inj, List.append_sublist_append_right, List.filter_append,
      List.filter_append, List.append_left_inj] at options
    exact ⟨header, options⟩
  · rintro ⟨header, options⟩
    refine ⟨header, ?_⟩
    rw [List.append_left_inj, List.append_sublist_append_right, List.filter_append,
      List.filter_append, List.append_left_inj]
    exact options

/-- A line that has options put behind it takes no damage exactly when it fits. -/
theorem kept_newSection {mark : Mark} (put : 0 < mark.count) :
    Kept listed ⟨activeWords mark.line, []⟩ mark.newSection ↔ Fits listed mark.line := by
  unfold Mark.newSection
  rw [shown_of_put put]
  constructor
  · rintro ⟨header, same | ⟨⟨name, isListed, defines⟩, _, others⟩⟩
    · have last := last_behind put
      rw [List.map_eq_nil_iff.mp same] at last
      cases last
    · have isDefined : (activeWords mark.line).take 2 = [service, name] := of_decide_eq_true defines
      refine ⟨name, isListed, isDefined, header.trans isDefined, ?_⟩
      have disables := List.filter_eq_nil_iff.mp others _ (List.mem_map_of_mem (last_behind put))
      rw [Bool.not_eq_true', Bool.not_eq_false] at disables
      exact (isDisabled_disabledLine _).mp disables
  · rintro ⟨name, isListed, isDefined, still, apart⟩
    refine ⟨still.trans isDefined.symm, .inr ⟨⟨name, isListed, decide_eq_true isDefined⟩,
      List.nil_sublist _, ?_⟩⟩
    rw [List.filter_nil, List.filter_eq_nil_iff]
    intro option member
    obtain ⟨line, from_, rfl⟩ := List.mem_map.mp member
    obtain ⟨rest, rfl, here⟩ := mem_behind from_
    rw [Bool.not_eq_true', Bool.not_eq_false, isDisabled_disabledLine]
    rcases here with rfl | rfl
    · nofun
    · exact apart

/-- The first line and its options come before the rest. -/
theorem expandAll_cons (mark : Mark) (more : List Mark) :
    expandAll (mark :: more) = mark.expand ++ expandAll more := List.flatMap_cons

/-- A mark that has no options put behind it shows its line. -/
theorem expand_of_zero {mark : Mark} (none : mark.count = 0) : mark.expand = [mark.line] := by
  obtain ⟨line, count⟩ := mark
  subst none
  rfl

/-- The lines that options were put behind begin services. -/
def AllBegun (marks : List Mark) : Prop := ∀ mark ∈ marks, 0 < mark.count → Begun mark.line

/-- Exactness for the sections: all are kept as long as every such line fits. -/
theorem kept_sectionsFrom {marks : List Mark} (begun : AllBegun marks) :
    List.Forall₂ (Kept listed) (sectionsFrom current (activeLines (marks.map Mark.line)))
        (sectionsFrom current' (activeLines (expandAll marks))) ↔
      Kept listed current current' ∧ ∀ mark ∈ marks, 0 < mark.count → Fits listed mark.line := by
  induction marks generalizing current current' with
  | nil =>
      have single :
          List.Forall₂ (Kept listed) [current] [current'] ↔ Kept listed current current' := by
        rw [List.forall₂_cons, and_iff_left List.Forall₂.nil]
      exact single.trans (and_iff_left nofun).symm
  | cons mark more ih =>
      obtain ⟨here, later⟩ := List.forall_mem_cons.mp begun
      rw [List.map_cons, activeLines_cons, expandAll_cons, List.forall_mem_cons]
      by_cases put : 0 < mark.count
      · have header := isHeader_of_begun (here put)
        have some : activeWords mark.line ≠ [] := ne_nil_of_isHeader header
        rw [if_neg some, sectionsFrom, if_pos header, sectionsFrom_expand (here put),
          List.forall₂_cons, ih later, kept_newSection put, imp_iff_right put]
      · rw [expand_of_zero (by omega), List.singleton_append, activeLines_cons,
          and_iff_right (fun some => absurd some put)]
        split
        · exact ih later
        · rw [sectionsFrom, sectionsFrom]
          split
          · rw [List.forall₂_cons, ih later, and_iff_right (Kept.refl listed _)]
          · rw [ih later, kept_option]

/-- The service is defined and disabled here. -/
def Section.disables (section_ : Section) (name : List Char) : Prop :=
  section_.defines name = true ∧ section_.isDisabled = true

/-- One more option disables the service if it says so. -/
theorem disables_option {option : List (List Char)} {name : List Char} :
    Section.disables ⟨current.header, current.options ++ [option]⟩ name ↔
      current.disables name ∨ current.defines name = true ∧ isDisabled option = true := by
  unfold Section.disables Section.isDisabled
  rw [List.any_append, List.any_cons, List.any_nil, Bool.or_false, Bool.or_eq_true, and_or_left]
  exact Iff.rfl

/-- A line that fits still defines its service once options are put behind it. -/
theorem defines_newSection {mark : Mark} (put : 0 < mark.count) (fits : Fits listed mark.line)
    (name : List Char) :
    mark.newSection.defines name = Section.defines ⟨activeWords mark.line, []⟩ name := by
  obtain ⟨other, _, isDefined, still, _⟩ := fits
  unfold Section.defines Mark.newSection
  dsimp only
  rw [shown_of_put put, still, isDefined]

/-- Options that are put in disable the service they are put behind. -/
theorem disables_newSection {mark : Mark} {name : List Char} (put : 0 < mark.count)
    (fits : Fits listed mark.line) :
    mark.newSection.disables name ↔ (activeWords mark.line).take 2 = [service, name] := by
  have sameName := defines_newSection put fits name
  obtain ⟨_, _, _, _, apart⟩ := fits
  have last : disabledLine ++ mark.line.drop 200 ∈ mark.behind := last_behind put
  have disabled : mark.newSection.isDisabled = true :=
    List.any_eq_true.mpr ⟨_, List.mem_map_of_mem last, (isDisabled_disabledLine _).mpr apart⟩
  unfold Section.disables
  rw [disabled, and_iff_left rfl, sameName]
  exact decide_eq_true_iff

/-- A service is disabled by its own section, or by a line that has options put behind it. -/
theorem exists_disables_iff {marks : List Mark} {name : List Char} (begun : AllBegun marks)
    (fits : ∀ mark ∈ marks, 0 < mark.count → Fits listed mark.line)
    (extra : Prop) (same : current'.defines name = current.defines name)
    (more : current'.disables name ↔ current.disables name ∨ extra) :
    (∃ section_ ∈ sectionsFrom current' (activeLines (expandAll marks)), section_.disables name) ↔
      (∃ section_ ∈ sectionsFrom current (activeLines (marks.map Mark.line)),
        section_.disables name) ∨ extra ∨
      ∃ mark ∈ marks, 0 < mark.count ∧ (activeWords mark.line).take 2 = [service, name] := by
  induction marks generalizing current current' extra with
  | nil =>
      have single (other : Section) :
          (∃ section_ ∈ [other], section_.disables name) ↔ other.disables name := by
        rw [List.exists_mem_cons_iff, or_iff_left (by nofun)]
      rw [or_iff_left (by nofun : ¬ ∃ mark ∈ ([] : List Mark), 0 < mark.count ∧ _)]
      exact (single current').trans (more.trans (or_congr_left (single current).symm))
  | cons mark marks ih =>
      obtain ⟨here, later⟩ := List.forall_mem_cons.mp begun
      obtain ⟨fitsHere, fitsLater⟩ := List.forall_mem_cons.mp fits
      rw [List.map_cons, activeLines_cons, expandAll_cons, List.exists_mem_cons_iff]
      by_cases put : 0 < mark.count
      · have header := isHeader_of_begun (here put)
        have some : activeWords mark.line ≠ [] := ne_nil_of_isHeader header
        have fitsLine : Fits listed mark.line := fitsHere put
        have noOption : ¬ Section.disables ⟨activeWords mark.line, []⟩ name :=
          fun both => absurd both.2 Bool.false_ne_true
        have next : mark.newSection.disables name ↔
            Section.disables ⟨activeWords mark.line, []⟩ name ∨
              (activeWords mark.line).take 2 = [service, name] := by
          rw [or_iff_right noOption]
          exact disables_newSection put fitsLine
        rw [if_neg some, sectionsFrom, if_pos header, sectionsFrom_expand (here put),
          List.exists_mem_cons_iff, List.exists_mem_cons_iff,
          ih later fitsLater _ (defines_newSection put fitsLine name) next, more,
          and_iff_right put]
        exact or_or_or_comm
      · have none : ¬ (0 < mark.count ∧ (activeWords mark.line).take 2 = [service, name]) :=
          fun both => put both.1
        rw [expand_of_zero (by omega), List.singleton_append, activeLines_cons, or_iff_right none]
        split
        · exact ih later fitsLater extra same more
        · rw [sectionsFrom, sectionsFrom]
          split
          · rw [List.exists_mem_cons_iff, List.exists_mem_cons_iff,
              ih later fitsLater False rfl (or_iff_left id).symm, more,
              false_or]
            exact or_or_or_comm
          · refine ih later fitsLater extra same ?_
            rw [disables_option, disables_option, more, same]
            exact or_right_comm

end Sections

/-! ## Finding a mark -/

section Finding

variable {marks : List Mark}

/-- No line goes away. -/
theorem expandAll_ne_nil (some : marks ≠ []) : expandAll marks ≠ [] := by
  obtain ⟨mark, more, rfl⟩ := List.exists_cons_of_ne_nil some
  rw [expandAll_cons]
  exact List.cons_ne_nil _ _

/-- Options put in bring no line break into a line. -/
theorem proper_expandAll (proper : Proper (marks.map Mark.line)) : Proper (expandAll marks) := by
  intro line member
  obtain ⟨mark, from_, here⟩ := List.mem_flatMap.mp member
  have original : '\n' ∉ mark.line := proper _ (List.mem_map_of_mem from_)
  rcases List.mem_cons.mp here with rfl | option
  · unfold Mark.shown
    split
    · exact original
    · exact fun breaks => original (List.mem_of_mem_take breaks)
  · obtain ⟨rest, rfl, shape⟩ := mem_behind option
    rw [List.mem_append, not_or]
    refine ⟨by decide, ?_⟩
    rcases shape with rfl | rfl
    · exact List.not_mem_nil
    · exact fun breaks => original (List.mem_of_mem_drop breaks)

/-- The options do not begin a service. -/
theorem not_begun_behind {mark : Mark} {option : List Char} (member : option ∈ mark.behind) :
    ¬ Begun option := by
  obtain ⟨rest, rfl, _⟩ := mem_behind member
  rintro ⟨_, same, _⟩
  cases same

/-- A line that begins a service is what is left in the line of a mark. -/
theorem expandAll_eq_append {front back : List (List Char)} {line : List Char} (begun : Begun line)
    (split : expandAll marks = front ++ line :: back) :
    ∃ before mark after, marks = before ++ mark :: after ∧ mark.shown = line ∧
      front = expandAll before ∧ back = mark.behind ++ expandAll after := by
  induction marks generalizing front with
  | nil => exact absurd split.symm (List.append_ne_nil_of_right_ne_nil _ (List.cons_ne_nil _ _))
  | cons mark more ih =>
      rw [expandAll_cons, Mark.expand, List.cons_append] at split
      cases front with
      | nil =>
          obtain ⟨shown, rest⟩ := List.cons.inj split
          exact ⟨[], mark, more, rfl, shown, rfl, rest.symm⟩
      | cons first front =>
          obtain ⟨rfl, rest⟩ := List.cons.inj split
          rcases List.append_eq_append_iff.mp rest with ⟨passed, rfl, later⟩ | ⟨inside, here, later⟩
          · obtain ⟨before, other, after, rfl, shown, rfl, ends⟩ := ih later
            exact ⟨mark :: before, other, after, rfl, shown, (expandAll_cons _ _).symm, ends⟩
          · cases inside with
            | nil =>
                have next : expandAll more = [] ++ line :: back := later.symm
                obtain ⟨before, other, after, rfl, shown, none, ends⟩ := ih next
                refine ⟨mark :: before, other, after, rfl, shown, ?_, ends⟩
                rw [expandAll_cons, ← none, List.append_nil, Mark.expand, here, List.append_nil]
            | cons option inside =>
                obtain ⟨rfl, _⟩ := List.cons.inj later
                have member : line ∈ mark.behind := by
                  rw [here]
                  exact List.mem_append_right _ List.mem_cons_self
                exact absurd begun (not_begun_behind member)

/-- Two parts of a file are expanded one after the other. -/
theorem expandAll_append (first second : List Mark) :
    expandAll (first ++ second) = expandAll first ++ expandAll second := List.flatMap_append

end Finding

end Nookobo.Boot
