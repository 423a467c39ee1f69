import Nookobo.Semantics.Alternation
import Nookobo.Watcher.Session

/-!
# The virtual Home key

Readers see the `KEY_HOME` events the watcher writes, from four places: the
hold timer, the release of a long press, the deferred click and the synthetic
hold of the Home + Top Left chord. `homeStream_exact` says when the stream they
form is well formed: presses and releases alternate, and the virtual key is up
whenever the physical one is.

A long press that has been announced must be closed by the release branch, but
a chord made after it either adds its own press or takes over the release. The
exact condition is that neither happens while the long press is open.
-/

namespace Nookobo.Watcher

open Nookobo.Semantics

/-- The virtual Home key alternates 1, 0, 1, 0, ... and is not left at 1 when
the physical key is up. -/
def Session.HomeStreamOk (session : Session) : Prop :=
  Alternates 1 0 (keyStream keyHome session.log) ∧
    (session.held keyHome = false → (keyStream keyHome session.log).getLast? ≠ some 1)

instance (session : Session) : Decidable session.HomeStreamOk :=
  inferInstanceAs (Decidable (_ ∧ _))

/-- No announced long press is open when the KOReader dialog chord is pressed,
nor when Home is released after a chord. -/
def Session.LongPressClosed (session : Session) (arrival : Arrival) : Prop :=
  (session.state.homeDown = true → Session.isPagePress arrival.event = true →
      HomeView.isDialogChord arrival = true → session.state.homeLongSent = false) ∧
    (Session.isKeyEvent arrival.event keyHome 0 = true →
      session.state.homeComboConsumed = true → session.state.homeLongSent = false)

instance (session : Session) (arrival : Arrival) :
    Decidable (session.LongPressClosed arrival) :=
  inferInstanceAs (Decidable (_ ∧ _))

/-- The automaton agrees with the physical key and with the stream written. -/
structure HomeView.InStep (view : HomeView) (held : Bool) (stream : List Int) : Prop where
  heldDown : view.down = held
  alternates : Alternates 1 0 stream
  level : expected 1 0 stream = if view.long then 0 else 1
  upClosed : view.down = false → view.long = false
  downUnarmed : view.down = true → view.pending = false

namespace HomeView.InStep

variable {view : HomeView} {held : Bool} {stream : List Int}

/-- Read from the release on, the stream ends at the opposite level. -/
theorem mirror (inStep : view.InStep held stream) :
    expected 0 1 stream = if view.long then 1 else 0 := by
  have level := inStep.level
  rcases expected_eq_or (1 : Int) 0 stream with ⟨same, other⟩ | ⟨same, other⟩
  · rw [same] at level
    cases long : view.long <;> simp_all
  · rw [same] at level
    cases long : view.long <;> simp_all

/-- A press followed by a release, written while no press is open. -/
theorem click (inStep : view.InStep held stream) (closed : view.long = false) :
    Alternates 1 0 (stream ++ [1, 0]) ∧ expected 1 0 (stream ++ [1, 0]) = 1 := by
  have level := inStep.level
  have mirror := inStep.mirror
  simp only [closed, Bool.false_eq_true, if_false] at level mirror
  rw [alternates_append, expected_append, level, mirror]
  exact ⟨⟨inStep.alternates, by simp⟩, rfl⟩

/-- A press that stays open. -/
theorem open_ (inStep : view.InStep held stream) (closed : view.long = false) :
    Alternates 1 0 (stream ++ [1]) ∧ expected 1 0 (stream ++ [1]) = 0 := by
  have level := inStep.level
  have mirror := inStep.mirror
  simp only [closed, Bool.false_eq_true, if_false] at level mirror
  rw [alternates_append, expected_append, level, mirror]
  exact ⟨⟨inStep.alternates, by simp⟩, rfl⟩

/-- The release of an open press. -/
theorem close (inStep : view.InStep held stream) (opened : view.long = true) :
    Alternates 1 0 (stream ++ [0]) ∧ expected 1 0 (stream ++ [0]) = 1 := by
  have level := inStep.level
  have mirror := inStep.mirror
  simp only [opened, if_true] at level mirror
  rw [alternates_append, expected_append, level, mirror]
  exact ⟨⟨inStep.alternates, by simp⟩, rfl⟩

/-- Nothing written while no press is open, and none open afterwards. -/
theorem quiet {next : HomeView} {nextHeld : Bool} (inStep : view.InStep held stream)
    (closed : view.long = false) (heldDown : next.down = nextHeld)
    (nextClosed : next.long = false) (unarmed : next.down = true → next.pending = false) :
    next.InStep nextHeld stream where
  heldDown := heldDown
  alternates := inStep.alternates
  level := by simpa [closed, nextClosed] using inStep.level
  upClosed := fun _ => nextClosed
  downUnarmed := unarmed

/-- The long press keeps the stream in step. -/
theorem sweepLong (inStep : view.InStep held stream) (now : UInt64) :
    (view.sweepLong now).1.InStep held
      (stream ++ keyStream keyHome (view.sweepLong now).2) := by
  unfold HomeView.sweepLong
  cases due : view.longDue now with
  | false => simpa using inStep
  | true =>
      simp only [HomeView.longDue, Bool.and_eq_true, Bool.not_eq_true'] at due
      obtain ⟨⟨⟨down, _⟩, closed⟩, _⟩ := due
      obtain ⟨alternates, level⟩ := inStep.open_ closed
      exact
        { heldDown := inStep.heldDown
          alternates := alternates
          level := level
          upClosed := fun up => absurd up (by simp [down])
          downUnarmed := fun _ => rfl }

/-- The single tap keeps the stream in step. -/
theorem sweepSingle (inStep : view.InStep held stream) (now : UInt64) :
    (view.sweepSingle now).1.InStep held
      (stream ++ keyStream keyHome (view.sweepSingle now).2) := by
  unfold HomeView.sweepSingle
  cases due : view.singleDue now with
  | false => simpa using inStep
  | true =>
      simp only [HomeView.singleDue, Bool.and_eq_true] at due
      -- a tap is only pending while Home is up, so no press is open
      have up : view.down = false := by
        cases down : view.down with
        | false => rfl
        | true => exact absurd (inStep.downUnarmed down) (by simp [due.1])
      have closed := inStep.upClosed up
      obtain ⟨alternates, level⟩ := inStep.click closed
      exact
        { heldDown := inStep.heldDown
          alternates := alternates
          level := level.trans (by simp [closed])
          upClosed := inStep.upClosed
          downUnarmed := fun _ => rfl }

/-- The loop top keeps the stream in step. -/
theorem sweep (inStep : view.InStep held stream) (now : UInt64) :
    (view.sweep now).1.InStep held (stream ++ keyStream keyHome (view.sweep now).2) := by
  have swept := (inStep.sweepLong now).sweepSingle now
  rw [List.append_assoc, ← keyStream_append] at swept
  exact swept

/-- Home down keeps the stream in step. -/
theorem homeDown (inStep : view.InStep false stream) (now : UInt64) :
    (view.homeDown now).1.InStep true
      (stream ++ keyStream keyHome (view.homeDown now).2) := by
  rw [HomeView.homeDown_keyStream, List.append_nil]
  exact inStep.quiet (inStep.upClosed inStep.heldDown) rfl rfl fun _ => rfl

/-- Home up keeps the stream in step, when a chord has not eaten a long press. -/
theorem homeUp (inStep : view.InStep true stream) (now : UInt64)
    (closed : view.combo = true → view.long = false) :
    (view.homeUp now).1.InStep false (stream ++ keyStream keyHome (view.homeUp now).2) := by
  obtain ⟨down, _, long, _, _⟩ := HomeView.homeUp_flags now view
  have nextClosed : (view.homeUp now).1.long = false := by
    rw [long]
    cases combo : view.combo with
    | false => exact Bool.and_false _
    | true => simp [closed combo]
  rw [HomeView.homeUp_keyStream]
  cases opened : view.long with
  | false =>
      simp only [Bool.false_and, Bool.false_eq_true, if_false, List.append_nil]
      exact inStep.quiet opened down nextClosed fun up => absurd up (by simp [down])
  | true =>
      have uncombined : view.combo = false := by
        cases combo : view.combo with
        | false => rfl
        | true => exact absurd (closed combo) (by simp [opened])
      obtain ⟨alternates, level⟩ := inStep.close opened
      simp only [uncombined, Bool.not_false, Bool.and_self, if_true]
      exact
        { heldDown := down
          alternates := alternates
          level := by simpa [nextClosed] using level
          upClosed := fun _ => nextClosed
          downUnarmed := fun up => absurd up (by simp [down]) }

/-- A chord keeps the stream in step, when the dialog chord finds no long press. -/
theorem chord (inStep : view.InStep held stream) {arrival : Arrival}
    (page : isPageKey arrival.event.code = true)
    (closed : HomeView.isDialogChord arrival = true → view.long = false) :
    (view.chord arrival).1.InStep held
      (stream ++ keyStream keyHome (view.chord arrival).2) := by
  rw [HomeView.chord_keyStream arrival view keyHome page]
  cases dialog : HomeView.isDialogChord arrival with
  | false =>
      simp only [Bool.false_eq_true, false_and, if_false, List.append_nil]
      exact
        { heldDown := inStep.heldDown
          alternates := inStep.alternates
          level := inStep.level
          upClosed := inStep.upClosed
          downUnarmed := fun _ => rfl }
  | true =>
      obtain ⟨alternates, level⟩ := inStep.click (closed dialog)
      simp only [and_self, if_true]
      exact
        { heldDown := inStep.heldDown
          alternates := alternates
          level := level.trans (by simp [HomeView.chord, closed dialog])
          upClosed := inStep.upClosed
          downUnarmed := fun _ => rfl }

/-- A page event that is not a chord never writes Home. -/
theorem page_keyStream {arrival : Arrival} (page : isPageKey arrival.event.code = true)
    (notChord : arrival.event.value = 1 → view.down = false) :
    keyStream keyHome (view.page arrival).2 = [] := by
  have silent : (Effect.emit arrival.event).keyValue keyHome = none := by
    rcases pageKey_cases page with code | code | code | code <;>
      simp [Effect.keyValue, code, keyHome]
  have forwarded : keyStream keyHome [.emit arrival.event] = [] := by
    simp [keyStream, silent]
  unfold HomeView.page
  by_cases pressed : arrival.event.value = 1
  · simp only [pressed, if_true, notChord pressed, Bool.false_eq_true, if_false]
    split
    · unfold HomeView.mediaEffects
      repeat' split
      all_goals rfl
    · exact forwarded
  · simp only [pressed, if_false]
    split
    · split
      · rfl
      · exact forwarded
    · rfl

end HomeView.InStep

namespace Session

/-- The invariant behind the well-formed stream. -/
def HomeInStep (session : Session) : Prop :=
  session.state.homeView.InStep (session.held keyHome) (keyStream keyHome session.log)

/-- In step, the stream of Home is well formed. -/
theorem HomeInStep.homeStreamOk {session : Session} (inStep : session.HomeInStep) :
    session.HomeStreamOk := by
  refine ⟨inStep.alternates, fun up last => ?_⟩
  rw [getLast?_eq_some_first_iff (by decide) inStep.alternates, inStep.level,
    inStep.upClosed (inStep.heldDown.trans up)] at last
  exact absurd last (by decide)

/-- The loop top keeps the session in step. -/
theorem HomeInStep.swept {session : Session} (inStep : session.HomeInStep) (now : UInt64) :
    (session.swept now).HomeInStep := by
  unfold HomeInStep
  rw [swept_homeView, swept_keyStream (by decide)]
  exact HomeView.InStep.sweep inStep now

/-- An event keeps the session in step, when it closes the long press it finds. -/
theorem HomeInStep.deliver {session : Session} {arrival : Arrival}
    (inStep : session.HomeInStep) (legal : session.Legal arrival)
    (closed : session.LongPressClosed arrival) : (session.deliver arrival).HomeInStep := by
  unfold HomeInStep at inStep ⊢
  rw [deliver_homeView, deliver_keyStream (by decide)]
  by_cases home : arrival.event.type = evKey ∧ arrival.event.code = keyHome
  · rcases home_cases legal home with ⟨up, _, held, handled⟩ | ⟨down, value, held, handled⟩
    · rw [up] at inStep
      rw [held, handled]
      exact inStep.homeDown arrival.now
    · rw [down] at inStep
      rw [held, handled]
      refine inStep.homeUp arrival.now fun combo => ?_
      exact closed.2 (by simp [isKeyEvent, home, value]) combo
  · rw [deliver_held_of_not_key home]
    by_cases page : arrival.event.type = evKey ∧ isPageKey arrival.event.code = true
    · rw [handle_page page]
      rcases HomeView.page_cases arrival session.state.homeView with
        ⟨pressed, down, chord⟩ | ⟨same, notChord⟩
      · rw [chord]
        refine inStep.chord page.2 fun dialog => ?_
        exact closed.1 down (by simp [isPagePress, page, pressed]) dialog
      · rw [same, HomeView.InStep.page_keyStream page.2 notChord, List.append_nil]
        exact inStep
    · rw [handle_other home page, other_keyStream (.inl rfl) home page, List.append_nil]
      exact inStep

/-- Once a long press is open, the dialog chord presses a second time, and a
release swallowed by a chord leaves the virtual key down. -/
theorem HomeInStep.broken {session : Session} {arrival : Arrival}
    (inStep : session.HomeInStep) (legal : session.Legal arrival)
    (missed : ¬ session.LongPressClosed arrival) :
    ¬ (session.deliver arrival).HomeStreamOk := by
  rintro ⟨alternates, released⟩
  unfold HomeInStep at inStep
  rw [deliver_keyStream (by decide)] at alternates released
  have level := inStep.level
  unfold LongPressClosed at missed
  rw [not_and_or] at missed
  rcases missed with chord | release
  · simp only [not_forall, Bool.not_eq_false] at chord
    obtain ⟨down, press, dialog, opened⟩ := chord
    simp only [isPagePress, Bool.and_eq_true, beq_iff_eq] at press
    obtain ⟨⟨key, page⟩, value⟩ := press
    have chorded : session.state.homeView.page arrival =
        session.state.homeView.chord arrival := by
      simp [HomeView.page, value, down]
    rw [handle_page ⟨key, page⟩, chorded,
      HomeView.chord_keyStream arrival _ keyHome page, alternates_append] at alternates
    simp only [State.homeView_long, opened, if_true] at level
    simp only [dialog, and_self, if_true, level, alternates_cons] at alternates
    exact absurd alternates.2.1 (by decide)
  · simp only [not_forall, Bool.not_eq_false] at release
    obtain ⟨event, combo, opened⟩ := release
    simp only [isKeyEvent, Bool.and_eq_true, beq_iff_eq] at event
    obtain ⟨home, value⟩ := event
    rcases home_cases legal home with ⟨_, press, _, _⟩ | ⟨_, _, held, handled⟩
    · rw [value] at press
      exact absurd press (by decide)
    · have quiet := HomeView.homeUp_keyStream arrival.now session.state.homeView
      simp only [State.homeView_combo, combo, Bool.not_true, Bool.and_false,
        Bool.false_eq_true, if_false] at quiet
      rw [handled, quiet, List.append_nil] at alternates released
      apply released held
      rw [getLast?_eq_some_first_iff (by decide) alternates, level]
      simp [opened]

end Session

/-- The virtual Home key is well formed along exactly those schedules on which
no chord meets an open long press: neither the dialog chord nor the release
after a chord. -/
theorem homeStream_exact (inputs : List Pass)
    (physical : machine.StepsMeet Session.Physical machine.initial inputs) :
    machine.Always Session.HomeStreamOk machine.initial inputs ↔
      machine.StepsMeet (Session.OnArrival Session.LongPressClosed) machine.initial inputs := by
  refine Session.always_iff_onArrival Session.HomeInStep
    (fun _ inStep => inStep.homeStreamOk) (fun _ now inStep => inStep.swept now)
    (fun _ _ inStep legal closed => inStep.deliver legal closed)
    (fun _ _ inStep legal missed => inStep.broken legal missed) ?_ physical
  exact
    { heldDown := rfl
      alternates := trivial
      level := rfl
      upClosed := fun _ => rfl
      downUnarmed := fun down => absurd down (by decide) }

/-- A long press held for 700 ms and released: well formed, and no chord. -/
theorem homeStream_exact_longPress :
    machine.StepsMeet (Session.OnArrival Session.LongPressClosed) machine.initial
        [.key 1000 keyHome 1 .koreader, .idle 1600, .key 1700 keyHome 0 .koreader] ∧
      machine.Always Session.HomeStreamOk machine.initial
        [.key 1000 keyHome 1 .koreader, .idle 1600, .key 1700 keyHome 0 .koreader] :=
  ⟨by decide, (homeStream_exact _ (by decide)).mpr (by decide)⟩

/-- Home is held past 500 ms in KOReader, Bottom Left is pressed to switch to
Plato, and both keys are released: the virtual Home key stays down. -/
theorem homeStream_stuck :
    machine.StepsMeet Session.Physical machine.initial
        [.key 1000 keyHome 1 .koreader, .idle 1600, .key 1700 192 1 .koreader,
          .key 1800 keyHome 0 .plato] ∧
      (readings [.key 1000 keyHome 1 .koreader, .idle 1600, .key 1700 192 1 .koreader,
          .key 1800 keyHome 0 .plato]).Pairwise (· ≤ ·) ∧
      ¬ machine.Always Session.HomeStreamOk machine.initial
        [.key 1000 keyHome 1 .koreader, .idle 1600, .key 1700 192 1 .koreader,
          .key 1800 keyHome 0 .plato] := by
  decide

end Nookobo.Watcher
