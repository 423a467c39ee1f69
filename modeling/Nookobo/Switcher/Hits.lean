import Nookobo.Switcher.Screen

/-!
# The app switcher: the button that is meant

A press looks for the first button of the table whose rectangle, with a margin of 35 pixels on
either side and 15 above and below, holds the point; the release acts on it. The buttons of the
music player stand 20 pixels apart, so that the margin of each covers the first 16 columns of the
next one, which comes later in the table.

`touched_button_acts` says that these columns are the only place where a contact acts on another
button than the one it was put on.
-/

namespace Nookobo.Switcher

open Nookobo.Semantics Nookobo.Text Nookobo.Shim

/-! ## Buttons on the panel -/

namespace ButtonId

/-- The point lies in the rectangle that is drawn for the button. -/
def Drawn (id : ButtonId) (x y : Int) : Prop :=
  ((button {} id).x ≤ x ∧ x < (button {} id).x + (button {} id).w) ∧
    (button {} id).y ≤ y ∧ y < (button {} id).y + (button {} id).h

instance (id : ButtonId) (x y : Int) : Decidable (id.Drawn x y) :=
  inferInstanceAs (Decidable (_ ∧ _))

/-- The command of a button that has one. -/
def commands : ButtonId → List Command
  | .musicPrev => [.audioPrev]
  | .musicPlay => [.audioPause]
  | .musicNext => [.audioNext]
  | .musicShuffle => [.audioShuffle]
  | .frontlight => [.toggleFrontlight]
  | .koreader | .plato | .netsurf | .close => []

/-- The button ends the program, which then goes on with its branch. -/
def ends : ButtonId → Bool
  | .koreader | .plato | .netsurf | .close => true
  | _ => false

end ButtonId

/-- The point lies in the first 16 columns of a button that has another one to its left. -/
def Shadowed (x y : Int) : Prop :=
  (980 ≤ y ∧ y < 1080) ∧ (452 ≤ x ∧ x < 468 ∨ 742 ≤ x ∧ x < 758 ∨ 992 ≤ x ∧ x < 1008)

instance (x y : Int) : Decidable (Shadowed x y) := inferInstanceAs (Decidable (_ ∧ _))

/-- What an action changes. -/
structure Outcome where
  commands : List Command
  chosen : Option ButtonId
  running : Bool

/-- The action of a button. -/
def ButtonId.perform (id : ButtonId) (before : Outcome) : Outcome where
  commands := before.commands ++ id.commands
  chosen := if id.ends then some id else before.chosen
  running := before.running && !id.ends

namespace State

/-- What the actions of the buttons change. -/
def outcome (state : State) : Outcome := ⟨state.commands, state.chosen, state.running⟩

/-- A step that reports a press. -/
def lands (state : State) : Label → Bool
  | .read (some event) _ =>
      decide (state.position = .reading ∧ event.type = 0 ∧ event.code = 0) &&
        !state.wasContactDown && state.isContactDown
  | _ => false

/-- A step that reports a release. -/
def lifts (state : State) : Label → Bool
  | .read (some event) _ =>
      decide (state.position = .reading ∧ event.type = 0 ∧ event.code = 0) &&
        state.wasContactDown && !state.isContactDown
  | _ => false

/-- A release at a point of the dialog. -/
def LiftsInside (state : State) (label : Label) : Prop :=
  state.lifts label = true ∧ state.located = true ∧
    (dlgX ≤ state.screenX ∧ state.screenX < dlgX + dlgW) ∧
      dlgY ≤ state.screenY ∧ state.screenY < dlgY + dlgH

instance (state : State) (label : Label) : Decidable (state.LiftsInside label) :=
  inferInstanceAs (Decidable (_ ∧ _))

end State

/-- The switcher, with the point at which the last contact was first reported. -/
structure Contact where
  state : State
  first : Option (Int × Int) := none

namespace Contact

variable (font : Font)

/-- The point of a press that comes before both coordinates is unknown. -/
def step (contact : Contact) (label : Label) : Contact where
  state := contact.state.step font label
  first :=
    if contact.state.lands label then
      if contact.state.located then some (contact.state.screenX, contact.state.screenY) else none
    else contact.first

/-- A release in the dialog performs the action of the button on which the contact began. -/
def Performs (contact : Contact) (label : Label) : Prop :=
  ∀ (id : ButtonId) (x y : Int), contact.first = some (x, y) → id.Drawn x y →
    contact.state.LiftsInside label →
      (contact.state.step font label).outcome = id.perform contact.state.outcome

/-- A contact that is lifted in the dialog did not begin on a shadowed point. -/
def Clear (contact : Contact) (label : Label) : Prop :=
  ∀ x y, contact.first = some (x, y) → contact.state.LiftsInside label → ¬ Shadowed x y

end Contact

/-- The switcher with the beginning of the contact remembered. -/
def contactMachine (font : Font) (found : Surroundings) : Machine Contact Label where
  initial := { state := start font found }
  step := Contact.step font

/-! ## The search -/

/-- The point lies on the button or in its margin. -/
def ButtonId.Padded (id : ButtonId) (x y : Int) : Prop :=
  (button {} id).x - 35 ≤ x ∧ x ≤ (button {} id).x + (button {} id).w + 35 ∧
    (button {} id).y - 15 ≤ y ∧ y ≤ (button {} id).y + (button {} id).h + 15

instance (id : ButtonId) (x y : Int) : Decidable (id.Padded x y) :=
  inferInstanceAs (Decidable (_ ∧ _))

/-- Where a button lies does not depend on its text. -/
theorem buttonAt_eq (labels : Labels) (x y : Int) :
    State.buttonAt labels x y = buttonIds.find? fun id => decide (id.Padded x y) := by
  unfold State.buttonAt
  congr 1
  funext id
  cases id <;> rfl

/-- A button reaches at least as far as it is drawn. -/
theorem ButtonId.Drawn.padded {id : ButtonId} {x y : Int} (drawn : id.Drawn x y) :
    id.Padded x y := by
  unfold Drawn at drawn
  unfold Padded
  omega

/-- The search finds the first button that fits. -/
theorem buttonAt_of_first {id : ButtonId} {before after : List ButtonId} {x y : Int}
    (order : buttonIds = before ++ id :: after) (here : id.Padded x y)
    (none : ∀ other ∈ before, ¬ other.Padded x y) (labels : Labels) :
    State.buttonAt labels x y = some id := by
  rw [buttonAt_eq, List.find?_eq_some_iff_append]
  refine ⟨decide_eq_true here, before, after, order, fun other member => ?_⟩
  rw [decide_eq_false (none other member)]
  rfl

/-- The buttons in front of a button in the table. -/
def ButtonId.before (id : ButtonId) : List ButtonId := buttonIds.takeWhile (· ≠ id)

/-- The earlier button ends in time: above or to the left, with its margin, or it is the
neighbour whose margin reaches 15 pixels into the button. -/
def ButtonId.Precedes (other id : ButtonId) : Prop :=
  (button {} other).y + (button {} other).h + 15 < (button {} id).y ∨
    (button {} other).x + (button {} other).w + 35 < (button {} id).x ∨
      ((button {} other).x + (button {} other).w + 35 = (button {} id).x + 15 ∧
        (button {} id).y = 980 ∧ (button {} id).h = 100) ∧
        ((button {} id).x = 452 ∨ (button {} id).x = 742 ∨ (button {} id).x = 992)

instance (other id : ButtonId) : Decidable (other.Precedes id) :=
  inferInstanceAs (Decidable (_ ∨ _))

/-- The buttons listed as earlier ones come earlier in the search. -/
theorem before_precedes (id : ButtonId) : ∀ other ∈ id.before, other.Precedes id := by
  cases id <;> decide

/-- The order of the search, split at a button. -/
theorem order_before (id : ButtonId) : ∃ after, buttonIds = id.before ++ id :: after := by
  cases id <;> exact ⟨_, rfl⟩

/-- On a point that is not shadowed the search finds the button that is seen there. -/
theorem buttonAt_of_clear {id : ButtonId} {x y : Int} (drawn : id.Drawn x y)
    (clear : ¬ Shadowed x y) (labels : Labels) : State.buttonAt labels x y = some id := by
  obtain ⟨after, order⟩ := order_before id
  refine buttonAt_of_first order drawn.padded ?_ labels
  intro other member padded
  have precedes := before_precedes id other member
  unfold ButtonId.Precedes at precedes
  unfold ButtonId.Drawn at drawn
  unfold ButtonId.Padded at padded
  unfold Shadowed at clear
  omega

/-- The buttons of the music player that stand side by side. -/
def neighbours : List (ButtonId × ButtonId) :=
  [(.musicPrev, .musicPlay), (.musicPlay, .musicNext), (.musicNext, .musicShuffle)]

/-- Neighbours stand in one row, 20 pixels apart. -/
theorem neighbours_overlap : ∀ pair ∈ neighbours,
    (button {} pair.2).x = (button {} pair.1).x + (button {} pair.1).w + 20 ∧
      (button {} pair.1).y = 980 ∧ (button {} pair.1).h = 100 ∧ 16 ≤ (button {} pair.1).w ∧
        (button {} pair.2).y = 980 ∧ (button {} pair.2).h = 100 ∧ 16 ≤ (button {} pair.2).w := by
  decide

/-- The margin of the first of two neighbours covers the left end of the second. -/
theorem neighbours_share {pair : ButtonId × ButtonId} {x y : Int} (among : pair ∈ neighbours)
    (rows : 980 ≤ y ∧ y < 1080)
    (columns : (button {} pair.2).x ≤ x ∧ x < (button {} pair.2).x + 16) :
    pair.1.Padded x y ∧ pair.2.Drawn x y := by
  have overlap := neighbours_overlap pair among
  unfold ButtonId.Padded ButtonId.Drawn
  omega

/-- A shadowed point lies in the margin of the button to the left of its own. -/
theorem Shadowed.between {x y : Int} (shadowed : Shadowed x y) :
    ∃ pair ∈ neighbours, pair.1.Padded x y ∧ pair.2.Drawn x y := by
  obtain ⟨rows, play | next | shuffle⟩ := shadowed
  · exact ⟨(.musicPrev, .musicPlay), by decide, neighbours_share (by decide) rows play⟩
  · exact ⟨(.musicPlay, .musicNext), by decide, neighbours_share (by decide) rows next⟩
  · exact ⟨(.musicNext, .musicShuffle), by decide, neighbours_share (by decide) rows shuffle⟩

/-- Neighbours do different things, and what comes before the first keeps away from the second. -/
theorem neighbours_differ : ∀ pair ∈ neighbours, pair.1.commands ≠ pair.2.commands ∧
    ∀ other ∈ pair.1.before,
      (button {} other).y + (button {} other).h + 15 < (button {} pair.2).y ∨
        (button {} other).x + (button {} other).w + 35 < (button {} pair.2).x := by
  decide

/-- On a shadowed point it finds the button to the left, which does something else. -/
theorem buttonAt_of_shadowed {x y : Int} (shadowed : Shadowed x y) (labels : Labels) :
    ∃ id other : ButtonId, id.Drawn x y ∧ State.buttonAt labels x y = some other ∧
      other.commands ≠ id.commands := by
  obtain ⟨⟨other, id⟩, among, padded, drawn⟩ := shadowed.between
  obtain ⟨differ, apart⟩ := neighbours_differ (other, id) among
  obtain ⟨after, order⟩ := order_before other
  refine ⟨id, other, drawn, buttonAt_of_first order padded ?_ labels, differ⟩
  intro earlier member reaches
  have away := apart earlier member
  unfold ButtonId.Drawn at drawn
  unfold ButtonId.Padded at reaches
  dsimp only at drawn away
  omega

/-! ## Steps -/

namespace State

variable (font : Font)

/-- Taking the highlight away is no action. -/
theorem outcome_unhighlight (state : State) :
    (state.unhighlight font).outcome = state.outcome := by
  unfold unhighlight
  split <;> rfl

/-- A button's action is the one that belongs to it. -/
theorem outcome_act (report : List (List UInt8)) (id : ButtonId) (state : State) :
    (state.act font report id).outcome = id.perform state.outcome := by
  have runs : state.running = (state.running && true) := (Bool.and_true _).symm
  have ends : false = (state.running && false) := (Bool.and_false _).symm
  have quiet : state.commands = state.commands ++ [] := (List.append_nil _).symm
  cases id with
  | musicPrev | musicPlay | musicNext | musicShuffle | frontlight =>
      exact congrArg (Outcome.mk _ state.chosen) runs
  | koreader => exact congrArg₂ (Outcome.mk · (some .koreader) ·) quiet ends
  | plato => exact congrArg₂ (Outcome.mk · (some .plato) ·) quiet ends
  | netsurf => exact congrArg₂ (Outcome.mk · (some .netsurf) ·) quiet ends
  | close => exact congrArg₂ (Outcome.mk · (some .close) ·) quiet ends

/-- A release at a point of the dialog performs the action of its target. -/
theorem outcome_handleRelease {state : State} {id : ButtonId} (located : state.located = true)
    (inside : outsideDialog state.screenX state.screenY = false) (selects : state.target = some id)
    (report : List (List UInt8)) :
    (state.handleRelease font report).outcome = id.perform state.outcome := by
  have drawn : ({ state with wasContactDown := false }.unhighlight font).outcome =
      state.outcome := outcome_unhighlight font { state with wasContactDown := false }
  have kept : ∀ acted : State, acted.released.outcome = acted.outcome := by
    intro acted
    unfold released
    split <;> rfl
  generalize shows : { state with wasContactDown := false }.unhighlight font = shown at drawn
  rw [handleRelease_of_located font located report shows, inside, if_neg Bool.false_ne_true, kept,
    selects]
  dsimp only
  rw [outcome_act, drawn]

/-- A step that reports a release handles one. -/
theorem step_of_lifts {state : State} {label : Label} (lifts : state.lifts label = true) :
    ∃ report, state.step font label = state.handleRelease font report := by
  unfold State.lifts at lifts
  split at lifts
  · next event report =>
      simp only [Bool.and_eq_true, decide_eq_true_eq, Bool.not_eq_true'] at lifts
      obtain ⟨⟨⟨reading, type, code⟩, was⟩, is⟩ := lifts
      refine ⟨report, ?_⟩
      simp only [step, reading, handleEvent, type, code, handleFrame, was, is]
      rfl
  · cases lifts

/-- A report reports a press when the contact has just begun. -/
theorem lands_of_report {state : State} {event : InputEvent} {report : List (List UInt8)}
    (reading : state.position = .reading) (reports : event.type = 0 ∧ event.code = 0) :
    state.lands (.read (some event) report) = (!state.wasContactDown && state.isContactDown) := by
  have place : decide (state.position = .reading ∧ event.type = 0 ∧ event.code = 0) = true :=
    decide_eq_true ⟨reading, reports⟩
  unfold lands
  dsimp only
  rw [place, Bool.true_and]

/-- Only a report can land. -/
theorem report_of_lands {state : State} {label : Label} (lands : state.lands label = true) :
    ∃ event report, label = .read (some event) report ∧ state.position = .reading ∧
      (event.type = 0 ∧ event.code = 0) ∧
        (!state.wasContactDown && state.isContactDown) = true := by
  unfold State.lands at lands
  split at lands
  · next event report =>
      rw [Bool.and_assoc, Bool.and_eq_true, decide_eq_true_eq] at lands
      obtain ⟨⟨reading, reports⟩, down⟩ := lands
      exact ⟨event, report, rfl, reading, reports, down⟩
  · cases lands

/-- A step that reports a press handles one. -/
theorem step_of_lands {state : State} {label : Label} (lands : state.lands label = true) :
    state.step font label = state.handlePress font := by
  obtain ⟨event, report, rfl, reading, reports, down⟩ := report_of_lands lands
  have handles : state.step font (.read (some event) report) =
      state.handleEvent font event report := by
    unfold step
    rw [reading]
  rw [handles, handleEvent_of_report font reports report state]
  exact if_pos down

/-- What a release looks at besides the present point. -/
def touch (state : State) : Bool × Option ButtonId := (state.wasContactDown, state.pressed)

/-- Leaving the loop does not touch the contact. -/
theorem touch_finish (state : State) : state.finish.touch = state.touch := by
  have restored : ∀ state : State, state.resume.touch = state.touch := by
    intro state
    unfold resume restore
    split <;> rfl
  unfold finish
  dsimp only
  split
  · exact restored _
  · split <;> rfl

/-- A release ends the contact. -/
theorem handleRelease_ends (report : List (List UInt8)) (state : State) :
    (state.handleRelease font report).wasContactDown = false := by
  have shown : ({ state with wasContactDown := false }.unhighlight font).wasContactDown =
      false := by
    unfold unhighlight
    split <;> rfl
  have kept : ∀ acted : State, acted.released.wasContactDown = acted.wasContactDown := by
    intro acted
    unfold released
    split <;> rfl
  have acts : ∀ (id : ButtonId) (state : State),
      (state.act font report id).wasContactDown = state.wasContactDown := by
    intro id state
    cases id <;> rfl
  cases located : state.located with
  | false => rw [handleRelease_of_nowhere font located report]
  | true =>
      generalize shows : { state with wasContactDown := false }.unhighlight font = drawn at shown
      rw [handleRelease_of_located font located report shows]
      split
      · exact shown
      · rw [kept]
        cases state.target with
        | none => exact shown
        | some id => exact (acts id drawn).trans shown

/-- While a contact lasts, nothing but its first report sets the button that is pressed. -/
theorem touch_step {state : State} {label : Label} (lands : state.lands label = false)
    (down : (state.step font label).wasContactDown = true) :
    (state.step font label).touch = state.touch := by
  have stepped := state.step_cases font label
  generalize state.step font label = after at stepped down ⊢
  cases stepped with
  | idle => rfl
  | move position open_ inside busy => rfl
  | signal open_ => rfl
  | finish open_ => exact touch_finish state
  | record event report label_eq reading =>
      subst label_eq
      by_cases reports : event.type = 0 ∧ event.code = 0
      · rw [lands_of_report reading reports] at lands
        rw [handleEvent_of_report font reports report state] at down ⊢
        unfold handleFrame at down ⊢
        rw [lands, if_neg Bool.false_ne_true] at down ⊢
        split at down
        · rw [handleRelease_ends] at down
          cases down
        · next unlifted =>
          rw [if_neg unlifted]
      · simp only [handleEvent, if_neg reports]
        split_ifs <;> rfl

/-- The first report of a contact searches for the button under it. -/
theorem pressed_handlePress {state : State} (located : state.located = true) :
    (state.handlePress font).pressed = buttonAt {} state.screenX state.screenY := by
  have here : State.located { state with wasContactDown := true } = true := located
  have same : ∀ labels, buttonAt labels state.screenX state.screenY =
      buttonAt {} state.screenX state.screenY := fun labels =>
    (buttonAt_eq labels _ _).trans (buttonAt_eq {} _ _).symm
  rw [← same state.labels]
  simp only [handlePress, here, if_true]
  split
  · next id found => exact found.symm
  · next found => exact found.symm

end State

/-! ## Runs -/

namespace Contact

variable (font : Font)

/-- While a contact lasts that began at a known point, the button that is pressed is the one the
search finds there. -/
def Searched (contact : Contact) : Prop :=
  contact.state.wasContactDown = true → ∀ x y, contact.first = some (x, y) →
    contact.state.pressed = State.buttonAt {} x y

/-- A step keeps the target the one the search finds at the beginning of the contact. -/
theorem searched_step {contact : Contact} (searched : contact.Searched) (label : Label) :
    (contact.step font label).Searched := by
  intro down x y began
  unfold step at began down ⊢
  dsimp only at began down ⊢
  cases lands : contact.state.lands label with
  | true =>
      rw [if_pos lands] at began
      split at began
      · next located =>
        obtain ⟨rfl, rfl⟩ := Prod.mk.inj (Option.some_inj.mp began)
        rw [State.step_of_lands font lands]
        exact State.pressed_handlePress font located
      · cases began
  | false =>
      rw [lands, if_neg Bool.false_ne_true] at began
      have kept := State.touch_step font lands down
      have was : contact.state.wasContactDown = true :=
        (congrArg Prod.fst kept).symm.trans down
      exact (congrArg Prod.snd kept).trans (searched was x y began)

/-- A release in the dialog performs the action of the button the search found first. -/
theorem outcome_of_searched {contact : Contact} (searched : contact.Searched) {label : Label}
    (lifts : contact.state.LiftsInside label) {x y : Int} (began : contact.first = some (x, y))
    {id : ButtonId} (found : State.buttonAt {} x y = some id) :
    (contact.state.step font label).outcome = id.perform contact.state.outcome := by
  obtain ⟨releases, located, ⟨left, right⟩, top, bottom⟩ := lifts
  have was : contact.state.wasContactDown = true := by
    unfold State.lifts at releases
    split at releases
    · exact (Bool.and_eq_true_iff.mp (Bool.and_eq_true_iff.mp releases).1).2
    · cases releases
  have pressed := searched was x y began
  have selects : contact.state.target = some id := by
    unfold State.target
    rw [pressed, found]
    rfl
  have inside : State.outsideDialog contact.state.screenX contact.state.screenY = false := by
    unfold State.outsideDialog
    apply decide_eq_false
    omega
  obtain ⟨report, same⟩ := State.step_of_lifts font releases
  rw [same]
  exact State.outcome_handleRelease font located inside selects report

/-- A release performs what was touched unless the contact began on a shadowed point. -/
theorem performs_iff_clear {contact : Contact} (searched : contact.Searched) (label : Label) :
    contact.Performs font label ↔ contact.Clear label := by
  constructor
  · intro performs x y began lifts shadowed
    obtain ⟨id, other, drawn, found, differ⟩ := buttonAt_of_shadowed shadowed {}
    have meant := performs id x y began drawn lifts
    have done := outcome_of_searched font searched lifts began found
    have same := congrArg Outcome.commands (done.symm.trans meant)
    exact differ (List.append_cancel_left same)
  · intro clear id x y began drawn lifts
    have found := buttonAt_of_clear drawn (clear x y began lifts) {}
    exact outcome_of_searched font searched lifts began found

end Contact

/-- In every run, each release in the dialog performs the action of the button on which its
contact began exactly when no such contact began on a shadowed point. -/
theorem touched_button_acts (font : Font) (found : Surroundings) (labels : List Label) :
    (contactMachine font found).StepsMeet (Contact.Performs font)
        (contactMachine font found).initial labels ↔
      (contactMachine font found).StepsMeet Contact.Clear
        (contactMachine font found).initial labels := by
  have start : (contactMachine font found).initial.Searched := by
    intro _ x y began
    cases began
  have anything : (contactMachine font found).StepsMeet (fun _ _ => True)
      (contactMachine font found).initial labels := Machine.StepsMeet.of_forall fun _ _ => trivial
  refine Machine.stepsMeet_iff Contact.Searched ?_ ?_ start anything
  · intro contact label searched _
    exact Contact.searched_step font searched label
  · intro contact label searched _
    exact Contact.performs_iff_clear font searched label

/-- A tap on the left end of the button for a pause goes back to the previous track. -/
theorem pause_edge_skips_back :
    ¬ (contactMachine blankFont (whiteScreen .koreader)).StepsMeet (Contact.Performs blankFont)
      (contactMachine blankFont (whiteScreen .koreader)).initial (tap 455 1030) := by
  intro performs
  obtain ⟨_, _, _, _, _, _, _, lift, _⟩ := performs
  have acts := congrArg Outcome.commands
    (lift .musicPlay 455 1030 (by decide +kernel) (by decide) (by decide +kernel))
  revert acts
  decide +kernel

end Nookobo.Switcher
