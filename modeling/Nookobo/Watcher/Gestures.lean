import Nookobo.Watcher.Session

/-!
# One Home press, one gesture

A press of Home can become a chord, a long press, a double tap or a plain
release. Each kind is recognised at its own moment: the double tap at the press,
the long press at a loop top, the chord at a page key, the release at the end.
`oneGesture_exact` says when no press becomes two kinds: each recognition has to
find that nothing else was recognised before it.

The program keeps a flag for three of the kinds but does not consult all of
them. The flag of a chord does not even survive the chord: the KOReader dialog
chord clears it again, so the condition speaks of the page key itself.
-/

namespace Nookobo.Watcher

open Nookobo.Semantics

/-- All gestures since the last press of Home are of one kind. -/
def Session.OneGesture (session : Session) : Prop :=
  ∀ first ∈ session.cycle, ∀ second ∈ session.cycle, first = second

instance (session : Session) : Decidable session.OneGesture :=
  inferInstanceAs (Decidable (∀ first ∈ session.cycle, _))

/-- A long press falls due only on a press that is neither the second tap nor
part of a chord. -/
def Session.LoneLongPress (session : Session) (now : UInt64) : Prop :=
  session.state.homeView.longDue now = true →
    session.state.homeDoubleConsumed = false ∧ session.pagePressed = false

/-- A chord is pressed only while neither a long press nor a double tap has been
recognised, and no page key was pressed before a release that acts as a tap. -/
def Session.LoneChord (session : Session) (arrival : Arrival) : Prop :=
  (session.state.homeDown = true → Session.isPagePress arrival.event = true →
      session.state.homeLongSent = false ∧ session.state.homeDoubleConsumed = false) ∧
    (Session.isKeyEvent arrival.event keyHome 0 = true →
      session.state.homeComboConsumed = false → session.state.homeLongSent = false →
      session.state.homeDoubleConsumed = false → session.pagePressed = false)

/-- Each recognition of the pass finds the press unclaimed. -/
def Session.NoOverlap (session : Session) (input : Pass) : Prop :=
  session.LoneLongPress input.top ∧ Session.OnArrival Session.LoneChord session input

instance (session : Session) (now : UInt64) : Decidable (session.LoneLongPress now) :=
  inferInstanceAs (Decidable (_ → _))

instance (session : Session) (arrival : Arrival) : Decidable (session.LoneChord arrival) :=
  inferInstanceAs (Decidable (_ ∧ _))

instance (session : Session) (input : Pass) : Decidable (session.NoOverlap input) :=
  have := Session.OnArrival.decidable Session.LoneChord session input
  inferInstanceAs (Decidable (_ ∧ _))

/-! ## Which gestures each move reports -/

/-- The gestures of two lists are those of the one and then those of the other. -/
@[simp] theorem gesturesOf_append (first second : List Effect) :
    gesturesOf (first ++ second) = gesturesOf first ++ gesturesOf second :=
  List.filterMap_append

namespace HomeView

variable (now : UInt64) (arrival : Arrival) (view : HomeView)

/-- The loop top recognises a long press when it is due, and nothing else. -/
theorem sweep_gestures :
    gesturesOf (view.sweep now).2 = if view.longDue now then [.longPress] else [] := by
  have tap : ∀ view : HomeView, gesturesOf (view.sweepSingle now).2 = [] := by
    intro view
    unfold sweepSingle
    split <;> rfl
  unfold sweep
  rw [gesturesOf_append, tap, List.append_nil]
  unfold sweepLong
  split <;> rfl

/-- Home down recognises a double tap or nothing. -/
theorem homeDown_gestures :
    gesturesOf (view.homeDown now).2 = if view.doubleTap now then [.doubleTap] else [] := by
  unfold homeDown
  dsimp only
  split <;> rfl

/-- A chord is recognised as one. -/
theorem chord_gestures (page : isPageKey arrival.event.code = true) :
    gesturesOf (view.chord arrival).2 = [.chord] := by
  unfold chord chordEffects
  dsimp only
  rcases pageKey_cases page with code | code | code | code
  all_goals
    simp only [code]
    repeat' split
    all_goals rfl

/-- The gestures of a release, with the arming of the single tap. -/
theorem homeUp_gestures (unarmed : view.pending = false) :
    gesturesOf (view.homeUp now).2 ++
        (if !view.pending && (view.homeUp now).1.pending then [.release] else []) =
      if view.combo then []
      else if view.long then [.longPress]
      else if view.double then []
      else [.release] := by
  obtain ⟨down, combo, pending, long, double, media, downTime, singleTime⟩ := view
  subst unarmed
  cases combo <;> cases long <;> cases double <;> cases media <;> rfl

/-- A page event that is not a chord reports nothing. -/
theorem page_gestures (notChord : arrival.event.value = 1 → view.down = false) :
    gesturesOf (view.page arrival).2 = [] := by
  unfold page
  by_cases pressed : arrival.event.value = 1
  · simp only [pressed, if_true, notChord pressed, Bool.false_eq_true, if_false]
    split
    · unfold mediaEffects
      repeat' split
      all_goals rfl
    · rfl
  · simp only [pressed, if_false]
    repeat' split
    all_goals rfl

end HomeView

/-- The other keys are no gestures. -/
theorem other_gestures {arrival : Arrival}
    (notHome : ¬ (arrival.event.type = evKey ∧ arrival.event.code = keyHome))
    (notPage : ¬ (arrival.event.type = evKey ∧ isPageKey arrival.event.code = true)) :
    gesturesOf (gestural (handle arrival {}).2) = [] := by
  rw [gesturesOf_gestural]
  unfold handle
  simp only [notHome, notPage, if_false]
  split
  · unfold handlePower
    repeat' split
    all_goals rfl
  · split
    · unfold handleLid
      dsimp only
      rw [gesturesOf_append]
      split <;> rfl
    · split <;> rfl

/-! ## The invariant -/

namespace HomeView

/-- The gestures a held Home key has been recognised as, read off the flags and
the page keys. -/
def recognised (view : HomeView) (pressed : Bool) : Gesture → Bool
  | .chord => pressed
  | .longPress => view.long
  | .doubleTap => view.double
  | .release => false

/-- The flags tell which gestures the press has become so far. -/
structure Tracks (view : HomeView) (held pressed : Bool) (cycle : List Gesture) : Prop where
  heldDown : view.down = held
  oneKind : ∀ first ∈ cycle, ∀ second ∈ cycle, first = second
  upClear : view.down = false → view.long = false ∧ view.double = false
  unarmed : view.down = true → view.pending = false
  comboPressed : view.down = true → view.combo = true → pressed = true
  members : view.down = true →
    ∀ gesture, gesture ∈ cycle ↔ view.recognised pressed gesture = true

/-- One more gesture of the kind already there. -/
theorem oneKind_concat {cycle : List Gesture} {kind : Gesture}
    (all : ∀ gesture ∈ cycle, gesture = kind) :
    ∀ first ∈ cycle ++ [kind], ∀ second ∈ cycle ++ [kind], first = second := by
  intro first inFirst second inSecond
  simp only [List.mem_append, List.mem_singleton] at inFirst inSecond
  rw [inFirst.elim (all first) id, inSecond.elim (all second) id]

namespace Tracks

variable {view : HomeView} {held pressed : Bool} {cycle : List Gesture}

/-- One recognised gesture rules out the others. -/
theorem unique (tracks : view.Tracks held pressed cycle) (down : view.down = true)
    (first second : Gesture) (seen : view.recognised pressed first = true)
    (other : first ≠ second) : view.recognised pressed second = false := by
  cases also : view.recognised pressed second with
  | false => rfl
  | true =>
      have inFirst := (tracks.members down first).mpr seen
      have inSecond := (tracks.members down second).mpr also
      exact absurd (tracks.oneKind first inFirst second inSecond) other

/-- A held key with no flag set and no page key pressed has no gesture yet. -/
theorem fresh (tracks : view.Tracks held pressed cycle) (down : view.down = true)
    (noChord : pressed = false) (noLong : view.long = false) (noDouble : view.double = false) :
    cycle = [] := by
  apply List.eq_nil_iff_forall_not_mem.mpr
  intro gesture member
  have seen := (tracks.members down gesture).mp member
  cases gesture <;> simp_all [recognised]

/-- The loop top keeps track, when the long press it recognises is alone. -/
theorem sweep (tracks : view.Tracks held pressed cycle) (now : UInt64)
    (alone : view.longDue now = true → view.double = false ∧ pressed = false) :
    (view.sweep now).1.Tracks held pressed (cycle ++ gesturesOf (view.sweep now).2) := by
  rw [sweep_gestures]
  cases due : view.longDue now with
  | false =>
      have still : (view.sweepLong now).1 = view := by simp [sweepLong, due]
      have flags : ∃ pending, (view.sweep now).1 = { view with pending := pending } ∧
          (view.pending = false → pending = false) := by
        unfold HomeView.sweep
        rw [still]
        unfold sweepSingle
        split
        · exact ⟨false, rfl, fun _ => rfl⟩
        · exact ⟨view.pending, rfl, id⟩
      obtain ⟨pending, same, lower⟩ := flags
      simp only [Bool.false_eq_true, if_false, List.append_nil]
      rw [same]
      exact
        { tracks with
          unarmed := fun down => lower (tracks.unarmed down) }
  | true =>
      obtain ⟨noDouble, noChord⟩ := alone due
      have parts := due
      simp only [longDue, Bool.and_eq_true, Bool.not_eq_true'] at parts
      obtain ⟨⟨⟨down, combo⟩, noLong⟩, _⟩ := parts
      have next : (view.sweep now).1 = { view with long := true, pending := false } := by
        simp [HomeView.sweep, sweepLong, due, sweepSingle, singleDue]
      have first := tracks.fresh down noChord noLong noDouble
      rw [next, first]
      exact
        { heldDown := tracks.heldDown
          oneKind := by simp
          upClear := fun up => absurd up (by simp [down])
          unarmed := fun _ => rfl
          comboPressed := fun _ consumed => absurd consumed (by simp [combo])
          members := by
            intro _ gesture
            cases gesture <;> simp [recognised, noChord, noDouble] }

/-- A press of Home begins a new cycle. -/
theorem homeDown (tracks : view.Tracks false pressed cycle) (now : UInt64) :
    (view.homeDown now).1.Tracks true false (gesturesOf (view.homeDown now).2) := by
  obtain ⟨_, noDouble⟩ := tracks.upClear tracks.heldDown
  rw [homeDown_gestures]
  exact
    { heldDown := rfl
      oneKind := by split <;> simp
      upClear := fun up => absurd up (by simp [HomeView.homeDown])
      unarmed := fun _ => rfl
      comboPressed := fun _ consumed => absurd consumed (by simp [HomeView.homeDown])
      members := by
        intro _ gesture
        cases tap : view.doubleTap now <;>
          cases gesture <;> simp [recognised, HomeView.homeDown, tap, noDouble] }

/-- A release of Home keeps track, when the tap it recognises is alone. -/
theorem homeUp (tracks : view.Tracks true pressed cycle) (now : UInt64)
    (alone : view.combo = false → view.long = false → view.double = false →
      pressed = false) :
    (view.homeUp now).1.Tracks false pressed
      (cycle ++ (gesturesOf (view.homeUp now).2 ++
        if !view.pending && (view.homeUp now).1.pending then [.release] else [])) := by
  have down := tracks.heldDown
  rw [homeUp_gestures now view (tracks.unarmed down)]
  obtain ⟨up, _, long, double, _⟩ := homeUp_flags now view
  have clear : (view.homeUp now).1.long = false ∧ (view.homeUp now).1.double = false := by
    rw [long, double]
    cases combo : view.combo with
    | true =>
        have chord : view.recognised pressed .chord = true := tracks.comboPressed down combo
        have noLong : view.long = false :=
          tracks.unique down .chord .longPress chord (by decide)
        have noDouble : view.double = false :=
          tracks.unique down .chord .doubleTap chord (by decide)
        simp [noLong, noDouble]
    | false =>
        cases opened : view.long with
        | true =>
            have noDouble : view.double = false :=
              tracks.unique down .longPress .doubleTap opened (by decide)
            simp [noDouble]
        | false => simp
  refine
    { heldDown := up
      oneKind := ?_
      upClear := fun _ => clear
      unarmed := fun bad => absurd bad (by simp [up])
      comboPressed := fun bad => absurd bad (by simp [up])
      members := fun bad => absurd bad (by simp [up]) }
  split
  · simpa using tracks.oneKind
  · split
    · rename_i opened
      have member : Gesture.longPress ∈ cycle := (tracks.members down .longPress).mpr opened
      exact oneKind_concat fun gesture inCycle =>
        tracks.oneKind gesture inCycle .longPress member
    · split
      · simpa using tracks.oneKind
      · rename_i combo long double
        simp only [Bool.not_eq_true] at combo long double
        rw [tracks.fresh down (alone combo long double) long double]
        simp

/-- A chord keeps track, when neither a long press nor a double tap came before. -/
theorem chord (tracks : view.Tracks held pressed cycle) {arrival : Arrival}
    (page : isPageKey arrival.event.code = true) (down : view.down = true)
    (noLong : view.long = false) (noDouble : view.double = false) :
    (view.chord arrival).1.Tracks held true (cycle ++ gesturesOf (view.chord arrival).2) := by
  rw [chord_gestures arrival view page]
  have all : ∀ gesture ∈ cycle, gesture = .chord := by
    intro gesture member
    have seen := (tracks.members down gesture).mp member
    cases gesture <;> simp_all [recognised]
  exact
    { heldDown := tracks.heldDown
      oneKind := oneKind_concat all
      upClear := fun up => absurd up (by simp [HomeView.chord, down])
      unarmed := fun _ => rfl
      comboPressed := fun _ _ => rfl
      members := by
        intro _ gesture
        simp only [List.mem_append, List.mem_singleton]
        constructor
        · intro member
          rw [member.elim (all gesture) id]
          rfl
        · intro seen
          cases gesture <;> simp_all [recognised, HomeView.chord] }

end Tracks

end HomeView

namespace Session

/-- The invariant behind the single gesture. -/
def GestureInStep (session : Session) : Prop :=
  session.state.homeView.Tracks (session.held keyHome) session.pagePressed session.cycle

/-- The loop top keeps the session in step. -/
theorem GestureInStep.swept {session : Session} (inStep : session.GestureInStep)
    {now : UInt64} (alone : session.LoneLongPress now) :
    (session.swept now).GestureInStep := by
  unfold GestureInStep
  rw [swept_homeView, swept_cycle]
  exact HomeView.Tracks.sweep inStep now alone

/-- The cycle after an event that is not a press of Home. -/
theorem deliver_cycle {session : Session} {arrival : Arrival}
    (notPress : isKeyEvent arrival.event keyHome 1 = false) :
    (session.deliver arrival).cycle = session.cycle ++
      (gesturesOf (session.state.homeView.handle arrival).2 ++
        if !session.state.homeView.pending &&
          (session.state.homeView.handle arrival).1.pending then [.release] else []) := by
  obtain ⟨view, effects⟩ := handle_homeView arrival session.state
  rw [← effects, ← view, gesturesOf_gestural]
  simp only [deliver, notPress, Bool.false_eq_true, if_false]
  rfl

/-- The cycle after a press of Home starts anew. -/
theorem deliver_cycle_press {session : Session} {arrival : Arrival}
    (press : isKeyEvent arrival.event keyHome 1 = true)
    (unarmed : (session.state.homeView.handle arrival).1.pending = false) :
    (session.deliver arrival).cycle =
      gesturesOf (session.state.homeView.handle arrival).2 := by
  obtain ⟨view, effects⟩ := handle_homeView arrival session.state
  have after : (handle arrival session.state).1.homePendingSingle = false := by
    rw [← view] at unarmed
    exact unarmed
  rw [← effects, gesturesOf_gestural]
  simp [deliver, press, armed, after]

/-- Unless Home is pressed, a page key pressed with Home held is remembered. -/
theorem deliver_pagePressed {session : Session} {arrival : Arrival}
    (notPress : isKeyEvent arrival.event keyHome 1 = false) :
    (session.deliver arrival).pagePressed =
      (session.pagePressed || (isPagePress arrival.event && session.state.homeDown)) := by
  simp [deliver, notPress]

/-- An event of Home keeps the session in step. -/
theorem GestureInStep.deliver_home {session : Session} {arrival : Arrival}
    (inStep : session.GestureInStep) (legal : session.Legal arrival)
    (alone : session.LoneChord arrival)
    (home : arrival.event.type = evKey ∧ arrival.event.code = keyHome) :
    (session.deliver arrival).GestureInStep := by
  unfold GestureInStep at inStep ⊢
  rw [deliver_homeView]
  rcases home_cases legal home with ⟨up, value, held, handled⟩ | ⟨down, value, held, handled⟩
  · have press : isKeyEvent arrival.event keyHome 1 = true := by
      simp [isKeyEvent, home, value]
    have pagePressed : (session.deliver arrival).pagePressed = false := by
      simp [Session.deliver, press]
    rw [up] at inStep
    rw [deliver_cycle_press press (by rw [handled]; rfl), held, handled, pagePressed]
    exact inStep.homeDown arrival.now
  · have notPress : isKeyEvent arrival.event keyHome 1 = false := by
      simp [isKeyEvent, value]
    have notPage : isPagePress arrival.event = false := by simp [isPagePress, value]
    rw [down] at inStep
    rw [deliver_cycle notPress, deliver_pagePressed notPress, notPage, held, handled,
      Bool.false_and, Bool.or_false]
    exact inStep.homeUp arrival.now (alone.2 (by simp [isKeyEvent, home, value]))

/-- An event that is not of Home is no press of it. -/
theorem not_homePress {event : InputEvent}
    (notHome : ¬ (event.type = evKey ∧ event.code = keyHome)) :
    isKeyEvent event keyHome 1 = false := by
  simp only [isKeyEvent, Bool.and_eq_false_iff, beq_eq_false_iff_ne]
  exact .inl (not_and_or.mp notHome)

/-- An event of a page key keeps the session in step. -/
theorem GestureInStep.deliver_page {session : Session} {arrival : Arrival}
    (inStep : session.GestureInStep) (alone : session.LoneChord arrival)
    (notHome : ¬ (arrival.event.type = evKey ∧ arrival.event.code = keyHome))
    (page : arrival.event.type = evKey ∧ isPageKey arrival.event.code = true) :
    (session.deliver arrival).GestureInStep := by
  have notPress := not_homePress notHome
  unfold GestureInStep at inStep ⊢
  rw [deliver_homeView, deliver_cycle notPress, deliver_pagePressed notPress,
    deliver_held_of_not_key notHome, handle_page page]
  rcases HomeView.page_cases arrival session.state.homeView with
    ⟨pressed, down, chord⟩ | ⟨same, notChord⟩
  · have pagePress : isPagePress arrival.event = true := by
      simp [isPagePress, page, pressed]
    have held : session.state.homeDown = true := down
    obtain ⟨noLong, noDouble⟩ := alone.1 held pagePress
    rw [chord, pagePress, held, (HomeView.chord_flags arrival _).2.2.1]
    simpa using inStep.chord page.2 down noLong noDouble
  · have free : (isPagePress arrival.event && session.state.homeDown) = false := by
      cases press : isPagePress arrival.event with
      | false => rfl
      | true =>
          simp only [isPagePress, Bool.and_eq_true, beq_iff_eq] at press
          exact notChord press.2
    rw [same, HomeView.page_gestures arrival _ notChord, free]
    simpa using inStep

/-- Any other event keeps the session in step. -/
theorem GestureInStep.deliver_other {session : Session} {arrival : Arrival}
    (inStep : session.GestureInStep)
    (notHome : ¬ (arrival.event.type = evKey ∧ arrival.event.code = keyHome))
    (notPage : ¬ (arrival.event.type = evKey ∧ isPageKey arrival.event.code = true)) :
    (session.deliver arrival).GestureInStep := by
  have notPress := not_homePress notHome
  have notPagePress : isPagePress arrival.event = false := by
    simp only [isPagePress, Bool.and_eq_false_iff, beq_eq_false_iff_ne]
    refine .inl ?_
    rcases not_and_or.mp notPage with other | other
    · exact .inl other
    · exact .inr (by simpa using other)
  unfold GestureInStep at inStep ⊢
  rw [deliver_homeView, deliver_cycle notPress, deliver_pagePressed notPress,
    deliver_held_of_not_key notHome, handle_other notHome notPage,
    other_gestures notHome notPage, notPagePress]
  simpa using inStep

/-- An event whose recognition is alone keeps the session in step. -/
theorem GestureInStep.deliver {session : Session} {arrival : Arrival}
    (inStep : session.GestureInStep) (legal : session.Legal arrival)
    (alone : session.LoneChord arrival) : (session.deliver arrival).GestureInStep := by
  by_cases home : arrival.event.type = evKey ∧ arrival.event.code = keyHome
  · exact inStep.deliver_home legal alone home
  · by_cases page : arrival.event.type = evKey ∧ isPageKey arrival.event.code = true
    · exact inStep.deliver_page alone home page
    · exact inStep.deliver_other home page

/-- Outside a press of Home, what the cycle holds stays. -/
theorem mem_deliver_cycle {session : Session} {arrival : Arrival}
    (notPress : isKeyEvent arrival.event keyHome 1 = false) {gesture : Gesture}
    (member : gesture ∈ session.cycle) : gesture ∈ (session.deliver arrival).cycle := by
  rw [deliver_cycle notPress]
  exact List.mem_append_left _ member

/-- A held Home key cannot be pressed. -/
theorem notPress_of_held {session : Session} {arrival : Arrival}
    (legal : session.Legal arrival) (held : session.held keyHome = true) :
    isKeyEvent arrival.event keyHome 1 = false := by
  cases press : isKeyEvent arrival.event keyHome 1 with
  | false => rfl
  | true =>
      simp only [isKeyEvent, Bool.and_eq_true, beq_iff_eq] at press
      obtain ⟨⟨key, code⟩, value⟩ := press
      rcases legal key with ⟨_, up⟩ | ⟨release, _⟩
      · rw [code, held] at up
        exact absurd up (by decide)
      · rw [value] at release
        exact absurd release (by decide)

/-- A long press recognised on top of another gesture. -/
theorem GestureInStep.overtaken {session : Session} (inStep : session.GestureInStep)
    {now : UInt64} (missed : ¬ session.LoneLongPress now) :
    session.held keyHome = true ∧ Gesture.longPress ∈ (session.swept now).cycle ∧
      ∃ other ∈ (session.swept now).cycle, other ≠ .longPress := by
  unfold GestureInStep at inStep
  unfold LoneLongPress at missed
  rw [Classical.not_imp, not_and_or] at missed
  obtain ⟨due, claimed⟩ := missed
  have down : session.state.homeView.down = true := by
    simp only [HomeView.longDue, Bool.and_eq_true] at due
    exact due.1.1.1
  rw [swept_cycle, HomeView.sweep_gestures, if_pos due]
  refine ⟨inStep.heldDown.symm.trans down, by simp, ?_⟩
  simp only [Bool.not_eq_false] at claimed
  rcases claimed with double | pressed
  · refine ⟨.doubleTap, List.mem_append_left _ ?_, by decide⟩
    exact (inStep.members down .doubleTap).mpr double
  · refine ⟨.chord, List.mem_append_left _ ?_, by decide⟩
    exact (inStep.members down .chord).mpr pressed

/-- A chord or a tap recognised on top of another gesture. -/
theorem GestureInStep.broken {session : Session} {arrival : Arrival}
    (inStep : session.GestureInStep) (legal : session.Legal arrival)
    (missed : ¬ session.LoneChord arrival) : ¬ (session.deliver arrival).OneGesture := by
  unfold GestureInStep at inStep
  unfold LoneChord at missed
  rw [not_and_or] at missed
  intro oneGesture
  rcases missed with chord | release
  · rw [Classical.not_imp, Classical.not_imp, not_and_or] at chord
    obtain ⟨down, press, claimed⟩ := chord
    have notPress := notPress_of_held legal (inStep.heldDown.symm.trans down)
    simp only [isPagePress, Bool.and_eq_true, beq_iff_eq] at press
    obtain ⟨⟨key, page⟩, value⟩ := press
    have chorded : session.state.homeView.page arrival =
        session.state.homeView.chord arrival := by
      simp [HomeView.page, value, down]
    have inChord : Gesture.chord ∈ (session.deliver arrival).cycle := by
      rw [deliver_cycle notPress, handle_page ⟨key, page⟩, chorded,
        HomeView.chord_gestures arrival _ page]
      simp
    simp only [Bool.not_eq_false] at claimed
    rcases claimed with long | double
    · have inLong := mem_deliver_cycle notPress ((inStep.members down .longPress).mpr long)
      exact absurd (oneGesture _ inChord _ inLong) (by decide)
    · have inDouble := mem_deliver_cycle notPress ((inStep.members down .doubleTap).mpr double)
      exact absurd (oneGesture _ inChord _ inDouble) (by decide)
  · simp only [Classical.not_imp, Bool.not_eq_false] at release
    obtain ⟨event, combo, long, double, pressed⟩ := release
    simp only [isKeyEvent, Bool.and_eq_true, beq_iff_eq] at event
    obtain ⟨home, value⟩ := event
    rcases home_cases legal home with ⟨_, press, _, _⟩ | ⟨held, _, _, handled⟩
    · rw [value] at press
      exact absurd press (by decide)
    · have down := inStep.heldDown.trans held
      have notPress := notPress_of_held legal held
      have inChord := mem_deliver_cycle notPress ((inStep.members down .chord).mpr pressed)
      have inRelease : Gesture.release ∈ (session.deliver arrival).cycle := by
        rw [deliver_cycle notPress, handled,
          HomeView.homeUp_gestures arrival.now _ (inStep.unarmed down)]
        simp [combo, long, double]
      exact absurd (oneGesture _ inChord _ inRelease) (by decide)

/-- A pass without overlap keeps the session in step. -/
theorem GestureInStep.advance {session : Session} {input : Pass}
    (inStep : session.GestureInStep) (legal : session.Physical input)
    (alone : session.NoOverlap input) : (session.advance input).GestureInStep := by
  obtain ⟨top, arrival⟩ := input
  have swept := inStep.swept alone.1
  cases arrival with
  | none => exact swept
  | some arrival => exact swept.deliver legal alone.2

/-- A pass with an overlap ends with two gestures of one press. -/
theorem GestureInStep.advance_broken {session : Session} {input : Pass}
    (inStep : session.GestureInStep) (legal : session.Physical input)
    (missed : ¬ session.NoOverlap input) : ¬ (session.advance input).OneGesture := by
  obtain ⟨top, arrival⟩ := input
  by_cases alone : session.LoneLongPress top
  · have swept := inStep.swept alone
    cases arrival with
    | none => exact absurd ⟨alone, trivial⟩ missed
    | some arrival => exact swept.broken legal fun lone => missed ⟨alone, lone⟩
  · -- Home is still held, so an event of the same pass cannot start a new cycle
    obtain ⟨held, inLong, other, inOther, different⟩ := inStep.overtaken alone
    cases arrival with
    | none => exact fun oneGesture => different (oneGesture _ inOther _ inLong)
    | some arrival =>
        have stepLegal : (session.swept top).Legal arrival := legal
        have notPress := notPress_of_held stepLegal held
        exact fun oneGesture => different (oneGesture _ (mem_deliver_cycle notPress inOther) _
          (mem_deliver_cycle notPress inLong))

end Session

/-- A Home press becomes at most one kind of gesture along exactly those
schedules on which every recognition finds the press unclaimed: the long press
neither a double tap nor a chord, the chord neither a long press nor a double
tap, and the tap no chord. -/
theorem oneGesture_exact (inputs : List Pass)
    (physical : machine.StepsMeet Session.Physical machine.initial inputs) :
    machine.Always Session.OneGesture machine.initial inputs ↔
      machine.StepsMeet Session.NoOverlap machine.initial inputs := by
  have sound : ∀ session : Session, session.GestureInStep → session.OneGesture :=
    fun _ inStep => inStep.oneKind
  have start : machine.initial.GestureInStep :=
    { heldDown := rfl
      oneKind := fun _ member => absurd member (by simp [machine])
      upClear := fun _ => ⟨rfl, rfl⟩
      unarmed := fun down => absurd down (by decide)
      comboPressed := fun down => absurd down (by decide)
      members := fun down => absurd down (by decide) }
  exact Machine.always_iff_stepsMeet Session.GestureInStep sound
    (fun _ _ inStep legal alone => inStep.advance legal alone)
    (fun _ _ inStep legal missed => inStep.advance_broken legal missed) start physical

/-- A chord whose page key is let go before Home, then a double tap. -/
theorem oneGesture_exact_chord_then_taps :
    machine.StepsMeet Session.NoOverlap machine.initial
        [.key 1000 keyHome 1 .koreader, .key 1100 192 1 .koreader,
          .key 1200 192 0 .plato, .key 1300 keyHome 0 .plato,
          .key 2000 keyHome 1 .plato, .key 2100 keyHome 0 .plato,
          .key 2200 keyHome 1 .plato, .key 2300 keyHome 0 .plato] ∧
      machine.Always Session.OneGesture machine.initial
        [.key 1000 keyHome 1 .koreader, .key 1100 192 1 .koreader,
          .key 1200 192 0 .plato, .key 1300 keyHome 0 .plato,
          .key 2000 keyHome 1 .plato, .key 2100 keyHome 0 .plato,
          .key 2200 keyHome 1 .plato, .key 2300 keyHome 0 .plato] :=
  ⟨by decide, (oneGesture_exact _ (by decide)).mpr (by decide)⟩

/-- In KOReader, Home + Top Left opens the frontlight dialog with a synthetic
hold of 550 ms and gives the combo flag back. Home is still held at the next loop
top, so the long press fires on the same press. -/
theorem oneGesture_chord_and_longPress :
    machine.StepsMeet Session.Physical machine.initial
        [.key 1000 keyHome 1 .koreader, .key 1100 191 1 .koreader,
          .key 1700 191 0 .koreader, .key 1800 keyHome 0 .koreader] ∧
      (readings [.key 1000 keyHome 1 .koreader, .key 1100 191 1 .koreader,
          .key 1700 191 0 .koreader, .key 1800 keyHome 0 .koreader]).Pairwise (· ≤ ·) ∧
      ¬ machine.Always Session.OneGesture machine.initial
        [.key 1000 keyHome 1 .koreader, .key 1100 191 1 .koreader,
          .key 1700 191 0 .koreader, .key 1800 keyHome 0 .koreader] := by
  decide

end Nookobo.Watcher
