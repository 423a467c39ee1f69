import Mathlib.Logic.Function.Basic
import Nookobo.Semantics.Run
import Nookobo.Watcher.HomeView

/-!
# Sessions of the button watcher

A `Session` is the program's state together with what an observer of the
hardware and of the virtual device has seen: which physical keys are held, the
effects so far, and the gestures recognised since Home was last pressed. The
observations never influence the program.

`machine` runs sessions over arbitrary passes of the main loop. `Physical` says
that every key alternates press and release; no constraint ties the clock
readings together, so every statement covers all nondecreasing clocks.
-/

namespace Nookobo.Watcher

open Nookobo.Semantics

/-! ## Observations on effects -/

/-- The values written to the virtual device for one key. -/
def Effect.keyValue (code : Nat) : Effect → Option Int
  | .emit event => if event.type = evKey ∧ event.code = code then some event.value else none
  | _ => none

/-- The values written for one key over some effects. -/
def keyStream (code : Nat) (effects : List Effect) : List Int :=
  effects.filterMap (Effect.keyValue code)

/-- The kinds of gesture one Home press can turn into. -/
inductive Gesture where
  /-- A page key pressed while Home is held. -/
  | chord
  /-- The 500 ms hold, with its release. -/
  | longPress
  /-- The second press of a double tap. -/
  | doubleTap
  /-- The single tap: armed in reading mode, play/pause in media mode. -/
  | release
deriving DecidableEq, Repr

/-- The gesture a log line reports. -/
def Message.gesture : Message → Option Gesture
  | .chordKoreaderFrontlight | .chordSwitchToKoreader | .chordPlatoFrontlight
  | .chordSwitchToPlato | .chordCloseNetsurf | .chordLaunchNetsurf | .chordMediaActive
  | .chordMediaBackground => some .chord
  | .homeLongPressDetected | .homeLongPressReleased => some .longPress
  | .homeDoubleTap => some .doubleTap
  | .homeTapInMediaMode => some .release
  | _ => none

/-- The gesture an effect reports. -/
def Effect.gesture : Effect → Option Gesture
  | .print message => message.gesture
  | _ => none

/-- The gestures some effects report, in order. -/
def gesturesOf (effects : List Effect) : List Gesture := effects.filterMap Effect.gesture

/-- Arming the deferred single tap prints nothing; it shows in the flag. -/
def armed (before after : State) : List Gesture :=
  if !before.homePendingSingle && after.homePendingSingle then [.release] else []

/-! ## Sessions -/

/-- The watcher's state and the observations made on it. -/
structure Session where
  state : State := {}
  /-- Physical keys that are down. -/
  held : Nat → Bool := fun _ => false
  log : List Effect := []
  /-- For each page key, whether its last press found Home held or media mode on. -/
  claimed : Nat → Bool := fun _ => false
  /-- Gestures recognised since Home was last pressed. -/
  cycle : List Gesture := []
  /-- A page key has gone down since Home was last pressed, with Home held. -/
  pagePressed : Bool := false

namespace Session

/-- The loop top. -/
def swept (session : Session) (now : UInt64) : Session :=
  let top := sweep now session.state
  { session with
    state := top.state
    log := session.log ++ top.effects
    cycle := session.cycle ++ gesturesOf top.effects }

/-- The event is this key going to this value. -/
def isKeyEvent (event : InputEvent) (code : Nat) (value : Int) : Bool :=
  event.type == evKey && event.code == code && event.value == value

/-- The event is a page key going down. -/
def isPagePress (event : InputEvent) : Bool :=
  event.type == evKey && isPageKey event.code && event.value == 1

/-- The handling of one event. -/
def deliver (session : Session) (arrival : Arrival) : Session :=
  let event := arrival.event
  let outcome := handle arrival session.state
  let gestures := gesturesOf outcome.2 ++ armed session.state outcome.1
  { state := outcome.1
    held :=
      if event.type = evKey then Function.update session.held event.code (event.value == 1)
      else session.held
    log := session.log ++ outcome.2
    claimed :=
      if isPagePress event then
        Function.update session.claimed event.code
          (session.state.homeDown || session.state.mediaMode)
      else session.claimed
    cycle :=
      if isKeyEvent event keyHome 1 then gestures else session.cycle ++ gestures
    pagePressed :=
      if isKeyEvent event keyHome 1 then false
      else session.pagePressed || (isPagePress event && session.state.homeDown) }

/-- One pass: the loop top, then the event if one came. -/
def advance (session : Session) (input : Pass) : Session :=
  match input.arrival with
  | none => session.swept input.top
  | some arrival => (session.swept input.top).deliver arrival

/-- A key goes down only when it is up, and up only when it is down. -/
def Legal (session : Session) (arrival : Arrival) : Prop :=
  arrival.event.type = evKey →
    arrival.event.value = 1 ∧ session.held arrival.event.code = false ∨
      arrival.event.value = 0 ∧ session.held arrival.event.code = true

instance (session : Session) (arrival : Arrival) : Decidable (session.Legal arrival) :=
  inferInstanceAs (Decidable (_ → _))

/-- Judge a condition on the event of a pass where the event is handled: after
the loop top. -/
def OnArrival (condition : Session → Arrival → Prop) (session : Session) (input : Pass) :
    Prop :=
  match input.arrival with
  | none => True
  | some arrival => condition (session.swept input.top) arrival

instance OnArrival.decidable (condition : Session → Arrival → Prop)
    [∀ session arrival, Decidable (condition session arrival)]
    (session : Session) (input : Pass) : Decidable (OnArrival condition session input) :=
  match input with
  | ⟨_, none⟩ => inferInstanceAs (Decidable True)
  | ⟨top, some arrival⟩ =>
      inferInstanceAs (Decidable (condition (session.swept top) arrival))

/-- Every physical key alternates press and release. -/
def Physical : Session → Pass → Prop := OnArrival Legal

instance (session : Session) (input : Pass) : Decidable (Physical session input) :=
  OnArrival.decidable Legal session input

end Session

/-- The button watcher from its start, over any passes of its main loop. -/
def machine : Machine Session Pass where
  initial := {}
  step := Session.advance

/-- A pass that finds no event. -/
def Pass.idle (time : UInt64) : Pass := ⟨time, none⟩

/-- A pass that reads one key event at the time of the loop top, with `app`
named in both files and the framebuffer at hand. -/
def Pass.key (time : UInt64) (code : Nat) (value : Int) (app : App) : Pass where
  top := time
  arrival := some ⟨⟨evKey, code, value⟩, time, AppFiles.setActiveApp app, ⟨true, true, true⟩⟩

/-- The clock readings of a schedule, in the order they are taken. -/
def readings (inputs : List Pass) : List UInt64 :=
  inputs.flatMap fun input => input.top :: (input.arrival.map Arrival.now).toList

/-! ## Observations only see gestural effects -/

/-- No effects write no key. -/
@[simp] theorem keyStream_nil (code : Nat) : keyStream code [] = [] := rfl

/-- The first effect writes the key or does not. -/
@[simp] theorem keyStream_cons (code : Nat) (effect : Effect) (rest : List Effect) :
    keyStream code (effect :: rest) = (effect.keyValue code).toList ++ keyStream code rest := by
  unfold keyStream
  cases value : effect.keyValue code <;> simp [value]

/-- An emitted key is written for itself only. -/
@[simp] theorem emitKey_keyValue (key code : Nat) (value : Int) :
    (emitKey key value).keyValue code = if key = code then some value else none := by
  simp [emitKey, Effect.keyValue]

/-- A log line writes no key. -/
@[simp] theorem print_keyValue (message : Message) (code : Nat) :
    (Effect.print message).keyValue code = none := rfl

/-- A command writes no key. -/
@[simp] theorem system_keyValue (command : String) (code : Nat) :
    (Effect.system command).keyValue code = none := rfl

/-- A request for another application writes no key. -/
@[simp] theorem setActiveApp_keyValue (app : App) (code : Nat) :
    (Effect.setActiveApp app).keyValue code = none := rfl

/-- The Plato frontlight request writes no key to the virtual device. -/
@[simp] theorem injectPlatoFrontlight_keyValue (code : Nat) :
    Effect.injectPlatoFrontlight.keyValue code = none := rfl

/-- What two lists of effects write for a key is what the one and then the other writes. -/
@[simp] theorem keyStream_append (code : Nat) (first second : List Effect) :
    keyStream code (first ++ second) = keyStream code first ++ keyStream code second :=
  List.filterMap_append

/-- For any key but power, the gestural effects write all there is. -/
theorem keyStream_gestural {code : Nat} (notPower : code ≠ keyPower)
    (effects : List Effect) : keyStream code (gestural effects) = keyStream code effects := by
  induction effects with
  | nil => rfl
  | cons effect rest ih =>
      rw [gestural_cons]
      cases visible : effect.isGestural with
      | true => simp [ih]
      | false =>
          have silent : effect.keyValue code = none := by
            cases effect with
            | emit event =>
                simp only [Effect.isGestural, Bool.and_eq_false_iff, bne_eq_false_iff_eq,
                  Bool.not_eq_false', Bool.and_eq_true, beq_iff_eq] at visible
                simp only [Effect.keyValue, ite_eq_right_iff, reduceCtorEq, imp_false]
                rintro ⟨key, rfl⟩
                rcases visible with syn | ⟨_, power⟩
                · rw [key] at syn
                  exact absurd syn (by decide)
                · exact notPower power
            | _ => rfl
          simp [silent, ih]

/-- The gestural effects report all gestures. -/
theorem gesturesOf_gestural (effects : List Effect) :
    gesturesOf (gestural effects) = gesturesOf effects := by
  induction effects with
  | nil => rfl
  | cons effect rest ih =>
      rw [gestural_cons]
      unfold gesturesOf at ih ⊢
      cases visible : effect.isGestural with
      | true => simp [List.filterMap_cons, ih]
      | false =>
          have silent : effect.gesture = none := by
            cases effect with
            | print message =>
                cases message <;> first | rfl | simp [Effect.isGestural, Message.isPower] at visible
            | _ => rfl
          simp [silent, ih]

/-! ## What each move of the automaton writes -/

namespace HomeView

variable (now : UInt64) (arrival : Arrival) (view : HomeView)

/-- Home down writes nothing. -/
theorem homeDown_keyStream (code : Nat) : keyStream code (view.homeDown now).2 = [] := by
  unfold homeDown
  dsimp only
  split <;> rfl

/-- Home up writes a release exactly when it ends a long press. -/
theorem homeUp_keyStream :
    keyStream keyHome (view.homeUp now).2 =
      if view.long && !view.combo then [0] else [] := by
  obtain ⟨down, combo, pending, long, double, media, downTime, singleTime⟩ := view
  cases combo <;> cases long <;> cases double <;> cases media <;> rfl

/-- Only the dialog chord writes a key: one Home click. -/
theorem chord_keyStream (code : Nat) (page : isPageKey arrival.event.code = true) :
    keyStream code (view.chord arrival).2 =
      if isDialogChord arrival ∧ code = keyHome then [1, 0] else [] := by
  unfold chord chordEffects isDialogChord
  rcases pageKey_cases page with pressed | pressed | pressed | pressed
  · by_cases here : arrival.files.getActiveApp = App.koreader.name
    · simp only [pressed, here, if_true, beq_self_eq_true, Bool.and_self, true_and]
      by_cases home : code = keyHome
      · simp [home]
      · simp [home, Ne.symm home]
    · simp [pressed, here]
  · by_cases here : arrival.files.getActiveApp = App.plato.name
    · simp [pressed, here]
    · simp [pressed, here]
  · by_cases here : arrival.files.getActiveApp = App.netsurf.name
    · simp [pressed, here]
    · simp [pressed, here]
  · cases media : view.media with
    | true => simp [pressed]
    | false => simp [pressed]

end HomeView

namespace Session

/-! ## How the observations move -/

/-- The loop top moves no physical key. -/
@[simp] theorem swept_held (session : Session) (now : UInt64) :
    (session.swept now).held = session.held := rfl

/-- The loop top claims no page key. -/
@[simp] theorem swept_claimed (session : Session) (now : UInt64) :
    (session.swept now).claimed = session.claimed := rfl

/-- The loop top presses no page key. -/
@[simp] theorem swept_pagePressed (session : Session) (now : UInt64) :
    (session.swept now).pagePressed = session.pagePressed := rfl

/-- The loop top moves the Home key's part as the automaton does. -/
theorem swept_homeView (session : Session) (now : UInt64) :
    (session.swept now).state.homeView = (session.state.homeView.sweep now).1 :=
  (sweep_homeView now session.state).1

/-- The loop top writes for a key what the automaton writes. -/
theorem swept_keyStream {code : Nat} (notPower : code ≠ keyPower) (session : Session)
    (now : UInt64) :
    keyStream code (session.swept now).log =
      keyStream code session.log ++ keyStream code (session.state.homeView.sweep now).2 := by
  rw [← (sweep_homeView now session.state).2, keyStream_gestural notPower]
  exact keyStream_append code _ _

/-- The loop top reports the gestures the automaton reports. -/
theorem swept_cycle (session : Session) (now : UInt64) :
    (session.swept now).cycle =
      session.cycle ++ gesturesOf (session.state.homeView.sweep now).2 := by
  rw [← (sweep_homeView now session.state).2, gesturesOf_gestural]
  rfl

/-- An event moves the Home key's part as the automaton does. -/
theorem deliver_homeView (session : Session) (arrival : Arrival) :
    (session.deliver arrival).state.homeView = (session.state.homeView.handle arrival).1 :=
  (handle_homeView arrival session.state).1

/-- An event writes for a key what the automaton writes. -/
theorem deliver_keyStream {code : Nat} (notPower : code ≠ keyPower) (session : Session)
    (arrival : Arrival) :
    keyStream code (session.deliver arrival).log =
      keyStream code session.log ++
        keyStream code (session.state.homeView.handle arrival).2 := by
  rw [← (handle_homeView arrival session.state).2, keyStream_gestural notPower]
  exact keyStream_append code _ _

/-- A key event sets the level of its key. -/
theorem deliver_held_of_key (session : Session) {arrival : Arrival}
    (key : arrival.event.type = evKey) :
    (session.deliver arrival).held =
      Function.update session.held arrival.event.code (arrival.event.value == 1) :=
  if_pos key

/-- Any other event leaves the level of a key alone. -/
theorem deliver_held_of_not_key {session : Session} {arrival : Arrival} {code : Nat}
    (other : ¬ (arrival.event.type = evKey ∧ arrival.event.code = code)) :
    (session.deliver arrival).held code = session.held code := by
  by_cases key : arrival.event.type = evKey
  · rw [deliver_held_of_key session key]
    exact Function.update_of_ne (fun same => other ⟨key, same.symm⟩) _ _
  · simp [deliver, key]

/-! ## The three kinds of event -/

/-- A legal Home event is a press of a key that is up, or a release of one that
is down. -/
theorem home_cases {session : Session} {arrival : Arrival} (legal : session.Legal arrival)
    (home : arrival.event.type = evKey ∧ arrival.event.code = keyHome) :
    session.held keyHome = false ∧ arrival.event.value = 1 ∧
        (session.deliver arrival).held keyHome = true ∧
        session.state.homeView.handle arrival = session.state.homeView.homeDown arrival.now ∨
      session.held keyHome = true ∧ arrival.event.value = 0 ∧
        (session.deliver arrival).held keyHome = false ∧
        session.state.homeView.handle arrival = session.state.homeView.homeUp arrival.now := by
  obtain ⟨key, code⟩ := home
  have held := congrFun (deliver_held_of_key session key) keyHome
  rw [code, Function.update_self] at held
  rcases legal key with ⟨value, up⟩ | ⟨value, down⟩
  · refine .inl ⟨code ▸ up, value, by rw [held, value]; rfl, ?_⟩
    simp [HomeView.handle, key, code, value]
  · refine .inr ⟨code ▸ down, value, by rw [held, value]; rfl, ?_⟩
    simp [HomeView.handle, key, code, value]

/-- A page key is not Home. -/
theorem not_home_of_page {arrival : Arrival}
    (page : arrival.event.type = evKey ∧ isPageKey arrival.event.code = true) :
    ¬ (arrival.event.type = evKey ∧ arrival.event.code = keyHome) := by
  rintro ⟨_, code⟩
  have bad := page.2
  rw [code] at bad
  exact absurd bad (by decide)

/-- The automaton handles a page key as such. -/
theorem handle_page {view : HomeView} {arrival : Arrival}
    (page : arrival.event.type = evKey ∧ isPageKey arrival.event.code = true) :
    view.handle arrival = view.page arrival := by
  have notHome := not_home_of_page page
  unfold HomeView.handle
  rw [if_neg notHome, if_pos page]

/-- Any other event leaves the automaton where it is. -/
theorem handle_other {view : HomeView} {arrival : Arrival}
    (notHome : ¬ (arrival.event.type = evKey ∧ arrival.event.code = keyHome))
    (notPage : ¬ (arrival.event.type = evKey ∧ isPageKey arrival.event.code = true)) :
    view.handle arrival = (view, gestural (handle arrival {}).2) := by
  unfold HomeView.handle
  rw [if_neg notHome, if_neg notPage]

/-- Events that are neither Home nor a page key write no such key. -/
theorem other_keyStream {code : Nat} (watched : code = keyHome ∨ isPageKey code = true)
    {arrival : Arrival} (notHome : ¬ (arrival.event.type = evKey ∧ arrival.event.code = keyHome))
    (notPage : ¬ (arrival.event.type = evKey ∧ isPageKey arrival.event.code = true)) :
    keyStream code (gestural (handle arrival {}).2) = [] := by
  have notPower : code ≠ keyPower := by
    rcases watched with rfl | page
    · decide
    · rcases pageKey_cases page with rfl | rfl | rfl | rfl <;> decide
  have silent : (Effect.emit arrival.event).keyValue code = none := by
    simp only [Effect.keyValue, ite_eq_right_iff, reduceCtorEq, imp_false]
    rintro ⟨key, rfl⟩
    rcases watched with home | page
    · exact notHome ⟨key, home⟩
    · exact notPage ⟨key, page⟩
  rw [keyStream_gestural notPower]
  unfold handle
  simp only [notHome, notPage, if_false]
  split
  · unfold handlePower
    split
    · split <;> rfl
    · rfl
  · split
    · unfold handleLid
      dsimp only
      rw [keyStream_append]
      have suspended : ∀ app, keyStream code (if arrival.event.value = 1 && app != App.koreader.name
          then [.print (.lidClosed app), .system "echo mem > /sys/power/state 2>/dev/null",
            .print .lidOpen] else []) = [] := by
        intro app
        split <;> rfl
      rw [suspended]
      simp [silent]
    · split
      · simp [silent]
      · rfl

/-- The rule by which every result on the watcher is proved: an invariant of
sessions kept by the loop top and by the events that meet the condition, such
that a missed condition shows at once. -/
theorem always_iff_onArrival (invariant : Session → Prop) {property : Session → Prop}
    {condition : Session → Arrival → Prop}
    (sound : ∀ session, invariant session → property session)
    (sweeps : ∀ session now, invariant session → invariant (session.swept now))
    (keeps : ∀ session arrival, invariant session → session.Legal arrival →
      condition session arrival → invariant (session.deliver arrival))
    (breaks : ∀ session arrival, invariant session → session.Legal arrival →
      ¬ condition session arrival → ¬ property (session.deliver arrival))
    (start : invariant machine.initial) {inputs : List Pass}
    (physical : machine.StepsMeet Physical machine.initial inputs) :
    machine.Always property machine.initial inputs ↔
      machine.StepsMeet (OnArrival condition) machine.initial inputs := by
  refine Machine.always_iff_stepsMeet invariant sound ?_ ?_ start physical
  · rintro session ⟨top, arrival⟩ holds legal meets
    cases arrival with
    | none => exact sweeps session top holds
    | some arrival => exact keeps _ arrival (sweeps session top holds) legal meets
  · rintro session ⟨top, arrival⟩ holds legal misses
    cases arrival with
    | none => exact absurd trivial misses
    | some arrival => exact breaks _ arrival (sweeps session top holds) legal misses

end Session

end Nookobo.Watcher
