import Nookobo.Watcher.Session

/-!
# Home presses do not leak into each other

Three flags describe what the current press of Home has become. The release
branch clears the flag of the first case that matches and no other, so a press
that set two flags leaves one behind. `homeFlags_exact` says that this is the
only way: between presses the flags are clear, and the past has no influence
beyond the pending tap and the media mode, along exactly those schedules on
which every release finds at most one flag.
-/

namespace Nookobo.Watcher

open Nookobo.Semantics

/-- Everything the watcher does over some passes of its main loop. -/
def outputs (state : State) : List Pass → List Effect
  | [] => []
  | input :: rest => (pass state input).2 ++ outputs (pass state input).1 rest

/-- A state that remembers of the past only what may cross from one press of
Home to the next: the pending tap with its time, and the media mode. -/
def State.betweenPresses (state : State) : State where
  homePendingSingle := state.homePendingSingle
  homeSingleTime := state.homeSingleTime
  mediaMode := state.mediaMode

namespace Session

/-- With Home up, the three flags are clear. -/
def FlagsClear (session : Session) : Prop :=
  session.state.homeDown = false →
    session.state.homeComboConsumed = false ∧ session.state.homeLongSent = false ∧
      session.state.homeDoubleConsumed = false

/-- With Home up, what the keys will do, whatever comes, follows from the
pending tap and the media mode. -/
def Forgetful (session : Session) : Prop :=
  session.state.homeDown = false → ∀ inputs,
    gestural (outputs session.state inputs) =
      gestural (outputs session.state.betweenPresses inputs)

/-- A release of Home finds at most one flag set. -/
def OneFlag (session : Session) (arrival : Arrival) : Prop :=
  isKeyEvent arrival.event keyHome 0 = true →
    (session.state.homeComboConsumed = true →
      session.state.homeLongSent = false ∧ session.state.homeDoubleConsumed = false) ∧
    (session.state.homeLongSent = true → session.state.homeDoubleConsumed = false)

instance (session : Session) : Decidable session.FlagsClear :=
  inferInstanceAs (Decidable (_ → _))

instance (session : Session) (arrival : Arrival) : Decidable (session.OneFlag arrival) :=
  inferInstanceAs (Decidable (_ → _))

end Session

/-! ## The time of the last press does not matter while Home is up -/

namespace HomeView

/-- The effects of the automaton over some passes. -/
def outputs (view : HomeView) : List Pass → List Effect
  | [] => []
  | input :: rest => (view.pass input).2 ++ outputs (view.pass input).1 rest

/-- With Home up no long press can fall due. -/
theorem sweep_of_up (now : UInt64) {view : HomeView} (up : view.down = false) :
    view.sweep now = view.sweepSingle now := by
  have still : view.sweepLong now = (view, []) := by simp [sweepLong, longDue, up]
  simp [sweep, still]

/-- Equal but for the time of the last press, which counts only under a held key. -/
structure Agrees (first second : HomeView) : Prop where
  rest : second = { first with downTime := second.downTime }
  downTime : first.down = true → second.downTime = first.downTime

namespace Agrees

variable {first second : HomeView}

/-- Under a held key nothing is left to differ. -/
theorem eq_of_down (agrees : first.Agrees second) (down : first.down = true) :
    second = first := by
  rw [agrees.rest, agrees.downTime down]

/-- With Home up the time of the last press does not count. -/
theorem withDownTime {view : HomeView} (up : view.down = false) (time : UInt64) :
    view.Agrees { view with downTime := time } :=
  ⟨rfl, fun down => absurd down (by simp [up])⟩

/-- A move whose effects and flags ignore the press time, and that leaves Home
up when it finds it up. -/
theorem step (move : HomeView → HomeView × List Effect)
    (ignores : ∀ (view : HomeView) (time : UInt64), view.down = false →
      (move view).1.Agrees (move { view with downTime := time }).1 ∧
        (move { view with downTime := time }).2 = (move view).2)
    (agrees : first.Agrees second) :
    (move first).1.Agrees (move second).1 ∧ (move second).2 = (move first).2 := by
  cases down : first.down with
  | true =>
      rw [agrees.eq_of_down down]
      exact ⟨⟨rfl, fun _ => rfl⟩, rfl⟩
  | false =>
      rw [agrees.rest]
      exact ignores first second.downTime down

/-- The loop top does the same to views that agree. -/
theorem sweep (agrees : first.Agrees second) (now : UInt64) :
    (first.sweep now).1.Agrees (second.sweep now).1 ∧
      (second.sweep now).2 = (first.sweep now).2 := by
  refine step (HomeView.sweep now) (fun view time up => ?_) agrees
  have alsoUp : { view with downTime := time }.down = false := up
  rw [sweep_of_up now up, sweep_of_up now alsoUp]
  unfold sweepSingle singleDue
  split
  · have tapped : { view with pending := false }.down = false := up
    exact ⟨withDownTime tapped time, rfl⟩
  · exact ⟨withDownTime up time, rfl⟩

/-- Home down does the same to views that agree. -/
theorem homeDown (agrees : first.Agrees second) (now : UInt64) :
    (first.homeDown now).1.Agrees (second.homeDown now).1 ∧
      (second.homeDown now).2 = (first.homeDown now).2 := by
  -- the press overwrites the time of the one before it
  refine step (HomeView.homeDown now) (fun view time up => ?_) agrees
  exact ⟨⟨rfl, fun _ => rfl⟩, rfl⟩

/-- Home up does the same to views that agree. -/
theorem homeUp (agrees : first.Agrees second) (now : UInt64) :
    (first.homeUp now).1.Agrees (second.homeUp now).1 ∧
      (second.homeUp now).2 = (first.homeUp now).2 := by
  refine step (HomeView.homeUp now) (fun view time up => ?_) agrees
  obtain ⟨down, combo, pending, long, double, media, downTime, singleTime⟩ := view
  cases combo <;> cases long <;> cases double <;> cases media <;>
    exact ⟨withDownTime rfl time, rfl⟩

/-- A page key does the same to views that agree. -/
theorem page (agrees : first.Agrees second) (arrival : Arrival) :
    (first.page arrival).1.Agrees (second.page arrival).1 ∧
      (second.page arrival).2 = (first.page arrival).2 := by
  refine step (HomeView.page arrival) (fun view time up => ?_) agrees
  rcases page_cases arrival view with ⟨_, down, _⟩ | ⟨same, _⟩
  · exact absurd down (by simp [up])
  · rcases page_cases arrival { view with downTime := time } with ⟨_, down, _⟩ | ⟨same', _⟩
    · exact absurd down (by simp [up])
    · rw [same, same']
      refine ⟨withDownTime up time, ?_⟩
      simp only [HomeView.page, up, Bool.false_eq_true, if_false]
      split
      · split <;> rfl
      · split
        · split <;> rfl
        · rfl

/-- An event does the same to views that agree. -/
theorem handle (agrees : first.Agrees second) (arrival : Arrival) :
    (first.handle arrival).1.Agrees (second.handle arrival).1 ∧
      (second.handle arrival).2 = (first.handle arrival).2 := by
  unfold HomeView.handle
  split
  · split
    · exact agrees.homeDown arrival.now
    · split
      · exact agrees.homeUp arrival.now
      · exact ⟨agrees, rfl⟩
  · split
    · exact agrees.page arrival
    · exact ⟨agrees, rfl⟩

/-- A pass does the same to views that agree. -/
theorem pass (agrees : first.Agrees second) (input : Pass) :
    (first.pass input).1.Agrees (second.pass input).1 ∧
      (second.pass input).2 = (first.pass input).2 := by
  obtain ⟨swept, sweptEffects⟩ := agrees.sweep input.top
  unfold HomeView.pass
  cases input.arrival with
  | none => exact ⟨swept, sweptEffects⟩
  | some arrival =>
      obtain ⟨handled, effects⟩ := swept.handle arrival
      refine ⟨handled, ?_⟩
      dsimp only
      rw [sweptEffects, effects]

/-- Agreeing automata act alike over any passes. -/
theorem outputs (agrees : first.Agrees second) (inputs : List Pass) :
    second.outputs inputs = first.outputs inputs := by
  induction inputs generalizing first second with
  | nil => rfl
  | cons input rest ih =>
      obtain ⟨next, effects⟩ := agrees.pass input
      simp only [HomeView.outputs]
      rw [effects, ih next]

end Agrees

end HomeView

/-- Over any passes, the gestural effects are those of the automaton. -/
theorem gestural_outputs (state : State) (inputs : List Pass) :
    gestural (outputs state inputs) = state.homeView.outputs inputs := by
  induction inputs generalizing state with
  | nil => rfl
  | cons input rest ih =>
      obtain ⟨view, effects⟩ := pass_homeView state input
      simp only [outputs, HomeView.outputs, gestural_append]
      rw [effects, ih, view]

namespace Session

/-- With clear flags nothing else is remembered of a press. -/
theorem FlagsClear.forgetful {session : Session} (clear : session.FlagsClear) :
    session.Forgetful := by
  intro up inputs
  obtain ⟨combo, long, double⟩ := clear up
  have agrees : session.state.betweenPresses.homeView.Agrees session.state.homeView := by
    refine ⟨?_, fun down => absurd down (by simp [State.betweenPresses])⟩
    ext <;> simp [State.betweenPresses, up, combo, long, double]
  rw [gestural_outputs, gestural_outputs]
  exact agrees.outputs inputs

/-- The automaton agrees with the physical key, and its flags are clear while
the key is up. -/
structure FlagsInStep (session : Session) : Prop where
  heldDown : session.state.homeDown = session.held keyHome
  clear : session.FlagsClear

/-- In step is a matter of the view and the physical key. -/
theorem FlagsInStep.congr {session next : Session} (inStep : session.FlagsInStep)
    (view : next.state.homeView = session.state.homeView)
    (held : next.held keyHome = session.held keyHome) : next.FlagsInStep := by
  have down : next.state.homeDown = session.state.homeDown := congrArg HomeView.down view
  have combo : next.state.homeComboConsumed = session.state.homeComboConsumed :=
    congrArg HomeView.combo view
  have long : next.state.homeLongSent = session.state.homeLongSent :=
    congrArg HomeView.long view
  have double : next.state.homeDoubleConsumed = session.state.homeDoubleConsumed :=
    congrArg HomeView.double view
  refine ⟨by rw [down, held]; exact inStep.heldDown, ?_⟩
  unfold FlagsClear
  rw [down, combo, long, double]
  exact inStep.clear

/-- The loop top keeps the session in step. -/
theorem FlagsInStep.swept {session : Session} (inStep : session.FlagsInStep)
    (now : UInt64) : (session.swept now).FlagsInStep := by
  have view := swept_homeView session now
  have down : (session.state.homeView.sweep now).1.down = session.state.homeDown := by
    simp only [HomeView.sweep, HomeView.sweepLong, HomeView.sweepSingle]
    repeat' split
    all_goals rfl
  have sameDown : (session.swept now).state.homeDown = session.state.homeDown := by
    rw [← down, ← view]
    rfl
  refine ⟨sameDown.trans inStep.heldDown, fun up => ?_⟩
  rw [sameDown] at up
  obtain ⟨combo, long, double⟩ := inStep.clear up
  have flags : (session.state.homeView.sweep now).1.combo = false ∧
      (session.state.homeView.sweep now).1.long = false ∧
      (session.state.homeView.sweep now).1.double = false := by
    rw [HomeView.sweep_of_up now up]
    unfold HomeView.sweepSingle
    split
    · exact ⟨combo, long, double⟩
    · exact ⟨combo, long, double⟩
  rw [← view] at flags
  exact flags

/-- What a release of Home leaves of the flags. -/
theorem release_flags {session : Session} {arrival : Arrival}
    (handled : session.state.homeView.handle arrival =
      session.state.homeView.homeUp arrival.now) :
    (session.deliver arrival).state.homeDown = false ∧
      (session.deliver arrival).state.homeComboConsumed = false ∧
      (session.deliver arrival).state.homeLongSent =
        (session.state.homeLongSent && session.state.homeComboConsumed) ∧
      (session.deliver arrival).state.homeDoubleConsumed =
        (session.state.homeDoubleConsumed &&
          (session.state.homeComboConsumed || session.state.homeLongSent)) := by
  obtain ⟨down, combo, long, double, _⟩ :=
    HomeView.homeUp_flags arrival.now session.state.homeView
  rw [← handled, ← deliver_homeView] at down combo long double
  exact ⟨down, combo, long, double⟩

/-- An event keeps the session in step, when a release finds one flag at most. -/
theorem FlagsInStep.deliver {session : Session} {arrival : Arrival}
    (inStep : session.FlagsInStep) (legal : session.Legal arrival)
    (oneFlag : session.OneFlag arrival) : (session.deliver arrival).FlagsInStep := by
  have view := deliver_homeView session arrival
  by_cases home : arrival.event.type = evKey ∧ arrival.event.code = keyHome
  · rcases home_cases legal home with ⟨_, _, held, handled⟩ | ⟨_, value, held, handled⟩
    · have down : (session.deliver arrival).state.homeDown = true := by
        rw [handled] at view
        exact congrArg HomeView.down view
      exact ⟨down.trans held.symm, fun up => absurd up (by simp [down])⟩
    · obtain ⟨down, combo, long, double⟩ := release_flags handled
      obtain ⟨afterCombo, afterLong⟩ := oneFlag (by simp [isKeyEvent, home, value])
      refine ⟨down.trans held.symm, fun _ => ⟨combo, ?_, ?_⟩⟩
      · rw [long]
        cases consumed : session.state.homeComboConsumed with
        | false => exact Bool.and_false _
        | true => simp [(afterCombo consumed).1]
      · rw [double]
        cases consumed : session.state.homeComboConsumed with
        | true => simp [(afterCombo consumed).2]
        | false =>
            cases sent : session.state.homeLongSent with
            | true => simp [afterLong sent]
            | false => simp
  · have held : (session.deliver arrival).held keyHome = session.held keyHome :=
      deliver_held_of_not_key home
    by_cases page : arrival.event.type = evKey ∧ isPageKey arrival.event.code = true
    · rw [handle_page page] at view
      rcases HomeView.page_cases arrival session.state.homeView with
        ⟨_, down, chord⟩ | ⟨same, _⟩
      · rw [chord] at view
        have stillDown : (session.deliver arrival).state.homeDown = true :=
          (congrArg HomeView.down view).trans down
        refine ⟨?_, fun up => absurd up (by simp [stillDown])⟩
        rw [stillDown, held, ← inStep.heldDown]
        exact down.symm
      · rw [same] at view
        exact inStep.congr view held
    · rw [handle_other home page] at view
      exact inStep.congr view held

/-- A release that finds two flags leaves one of them. -/
theorem FlagsInStep.broken {session : Session} {arrival : Arrival}
    (legal : session.Legal arrival) (missed : ¬ session.OneFlag arrival) :
    ¬ (session.deliver arrival).FlagsClear := by
  unfold OneFlag at missed
  rw [Classical.not_imp] at missed
  obtain ⟨event, twoFlags⟩ := missed
  simp only [isKeyEvent, Bool.and_eq_true, beq_iff_eq] at event
  obtain ⟨home, value⟩ := event
  rcases home_cases legal home with ⟨_, press, _, _⟩ | ⟨_, _, _, handled⟩
  · rw [value] at press
    exact absurd press (by decide)
  · obtain ⟨down, _, long, double⟩ := release_flags handled
    intro clear
    obtain ⟨_, noLong, noDouble⟩ := clear down
    rw [long] at noLong
    rw [double] at noDouble
    apply twoFlags
    constructor
    · intro combo
      simp only [combo, Bool.and_true, Bool.true_or] at noLong noDouble
      exact ⟨noLong, noDouble⟩
    · intro sent
      simpa [sent] using noDouble

end Session

/-- Between presses of Home the flags are clear, and the keys remember nothing
but the pending tap and the media mode, along exactly those schedules on which
every release of Home finds at most one flag set. -/
theorem homeFlags_exact (inputs : List Pass)
    (physical : machine.StepsMeet Session.Physical machine.initial inputs) :
    machine.Always (fun session => session.FlagsClear ∧ session.Forgetful)
        machine.initial inputs ↔
      machine.StepsMeet (Session.OnArrival Session.OneFlag) machine.initial inputs := by
  refine Session.always_iff_onArrival Session.FlagsInStep
    (fun _ inStep => ⟨inStep.clear, inStep.clear.forgetful⟩)
    (fun _ now inStep => inStep.swept now)
    (fun _ _ inStep legal oneFlag => inStep.deliver legal oneFlag)
    (fun _ _ _ legal missed holds => Session.FlagsInStep.broken legal missed holds.1) ?_ physical
  exact ⟨rfl, fun _ => ⟨rfl, rfl, rfl⟩⟩

/-- A double tap, a long press and a chord, each with its own press. -/
theorem homeFlags_exact_three_gestures :
    machine.StepsMeet (Session.OnArrival Session.OneFlag) machine.initial
        [.key 1000 keyHome 1 .koreader, .key 1100 keyHome 0 .koreader,
          .key 1200 keyHome 1 .koreader, .key 1300 keyHome 0 .koreader,
          .key 3000 keyHome 1 .koreader, .idle 3600, .key 3700 keyHome 0 .koreader,
          .key 5000 keyHome 1 .koreader, .key 5100 193 1 .koreader,
          .key 5200 193 0 .netsurf, .key 5300 keyHome 0 .netsurf] ∧
      machine.Always (fun session => session.FlagsClear ∧ session.Forgetful) machine.initial
        [.key 1000 keyHome 1 .koreader, .key 1100 keyHome 0 .koreader,
          .key 1200 keyHome 1 .koreader, .key 1300 keyHome 0 .koreader,
          .key 3000 keyHome 1 .koreader, .idle 3600, .key 3700 keyHome 0 .koreader,
          .key 5000 keyHome 1 .koreader, .key 5100 193 1 .koreader,
          .key 5200 193 0 .netsurf, .key 5300 keyHome 0 .netsurf] :=
  ⟨by decide, (homeFlags_exact _ (by decide)).mpr (by decide)⟩

/-- The second press of a double tap is held past 500 ms: the release closes the
long press and `home_double_consumed` stays set with Home up. -/
theorem homeFlags_double_left_behind :
    machine.StepsMeet Session.Physical machine.initial
        [.key 1000 keyHome 1 .koreader, .key 1100 keyHome 0 .koreader,
          .key 1200 keyHome 1 .koreader, .idle 1700, .key 1900 keyHome 0 .koreader] ∧
      (readings [.key 1000 keyHome 1 .koreader, .key 1100 keyHome 0 .koreader,
          .key 1200 keyHome 1 .koreader, .idle 1700,
          .key 1900 keyHome 0 .koreader]).Pairwise (· ≤ ·) ∧
      ¬ machine.Always Session.FlagsClear machine.initial
        [.key 1000 keyHome 1 .koreader, .key 1100 keyHome 0 .koreader,
          .key 1200 keyHome 1 .koreader, .idle 1700, .key 1900 keyHome 0 .koreader] := by
  decide

end Nookobo.Watcher
