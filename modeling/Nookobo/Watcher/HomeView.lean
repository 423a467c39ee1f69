import Mathlib.Tactic.Simps.Basic
import Nookobo.Watcher.Loop

/-!
# The gesture automaton inside the button watcher

What the keys do depends on few variables: the Home flags, the two Home time
stamps and the media mode. `HomeView` is that part of the state, and
`HomeView.sweep` and `HomeView.handle` say how one pass of the main loop moves
it and which effects it causes. Overlay drawing, the power key and the pacing
calls are invisible here.

`pass_homeView` connects the two levels: the view of the state after a pass and
the gestural effects of the pass are computed from the view alone. Every result
about keys and gestures is proved on the automaton and transported by it.
-/

namespace Nookobo.Watcher

/-- The variables the Home key, the page keys and their chords depend on. -/
@[ext]
structure HomeView where
  down : Bool
  combo : Bool
  pending : Bool
  long : Bool
  double : Bool
  media : Bool
  downTime : UInt64
  singleTime : UInt64
deriving DecidableEq, Repr

/-- The Home key's part of the program's state. -/
@[simps]
def State.homeView (state : State) : HomeView where
  down := state.homeDown
  combo := state.homeComboConsumed
  pending := state.homePendingSingle
  long := state.homeLongSent
  double := state.homeDoubleConsumed
  media := state.mediaMode
  downTime := state.homeDownTime
  singleTime := state.homeSingleTime

/-- The two lines printed for the power key. -/
def Message.isPower : Message → Bool
  | .powerSingleTap | .doublePowerTap => true
  | _ => false

/-- Effects that belong to the keys and their gestures: everything except the
power key, the synchronisation events, the pacing sleeps and the overlays. -/
def Effect.isGestural : Effect → Bool
  | .emit event => event.type != evSyn && !(event.type == evKey && event.code == keyPower)
  | .print message => !message.isPower
  | .system command => command != "/opt/scripts/toggle_frontlight.sh &"
  | .setActiveApp _ | .injectPlatoFrontlight => true
  | .usleep _ | .showToast _ _ | .hideToast | .showMediaCard _ | .hideMediaCard => false

/-- The gestural part of a list of effects. -/
def gestural (effects : List Effect) : List Effect := effects.filter Effect.isGestural

namespace HomeView

/-- The long press fires at the loop top. -/
def longDue (now : UInt64) (view : HomeView) : Bool :=
  view.down && !view.combo && !view.long &&
    decide (remaining (view.downTime + homeLongPressMs) now ≤ 0)

/-- The deferred single tap is emitted at the loop top. -/
def singleDue (now : UInt64) (view : HomeView) : Bool :=
  view.pending && decide (remaining (view.singleTime + powerDoubleClickMs) now ≤ 0)

/-- The long-press stage of the loop top. -/
def sweepLong (now : UInt64) (view : HomeView) : HomeView × List Effect :=
  if view.longDue now then
    ({ view with long := true, pending := false },
      [.print .homeLongPressDetected, emitKey keyHome 1])
  else (view, [])

/-- The single-tap stage of the loop top. -/
def sweepSingle (now : UInt64) (view : HomeView) : HomeView × List Effect :=
  if view.singleDue now then
    ({ view with pending := false },
      [.print .homeSingleTap, emitKey keyHome 1, emitKey keyHome 0])
  else (view, [])

/-- The loop top: first the long press, then the single tap, on the view the first leaves. -/
def sweep (now : UInt64) (view : HomeView) : HomeView × List Effect :=
  ((sweepSingle now (sweepLong now view).1).1,
    (sweepLong now view).2 ++ (sweepSingle now (sweepLong now view).1).2)

/-- The command every Home gesture of the player runs. -/
def pauseCommand : Effect := .system "/opt/audiocontrol.sh pause 2>/dev/null &"

/-- A second press soon enough after a tap, unless a double tap is already being held. -/
def doubleTap (now : UInt64) (view : HomeView) : Bool :=
  view.pending && !view.double && now - view.singleTime ≤ powerDoubleClickMs

/-- Home goes down: every flag but the double tap's starts afresh. -/
def homeDown (now : UInt64) (view : HomeView) : HomeView × List Effect :=
  ({ view with
      down := true, downTime := now, combo := false, long := false, pending := false,
      double := view.double || view.doubleTap now },
    if view.doubleTap now then [.print .homeDoubleTap, pauseCommand] else [])

/-- Home comes up: the first flag that is set takes the release. -/
def homeUp (now : UInt64) (view : HomeView) : HomeView × List Effect :=
  if view.combo then ({ view with down := false, combo := false }, [])
  else if view.long then
    ({ view with down := false, long := false },
      [.print .homeLongPressReleased, emitKey keyHome 0])
  else if view.double then ({ view with down := false, double := false }, [])
  else if view.media then
    ({ view with down := false }, [.print .homeTapInMediaMode, pauseCommand])
  else ({ view with down := false, pending := true, singleTime := now }, [])

/-- Whether the chord is the one that answers with a synthetic Home hold and
gives the combo flag back. -/
def isDialogChord (arrival : Arrival) : Bool :=
  arrival.event.code == 191 && arrival.files.getActiveApp == App.koreader.name

/-- The gestural effects of a chord; only the media chord looks at the mode. -/
def chordEffects (arrival : Arrival) (media : Bool) : List Effect :=
  if arrival.event.code = 191 then
    if arrival.files.getActiveApp = App.koreader.name then
      [.print .chordKoreaderFrontlight, emitKey keyHome 1, emitKey keyHome 0]
    else
      [.print .chordSwitchToKoreader, .setActiveApp .koreader,
        .system "killall -9 ld-2.19.so plato netsurf-fb 2>/dev/null || true"]
  else if arrival.event.code = 192 then
    if arrival.files.getActiveApp = App.plato.name then
      [.print .chordPlatoFrontlight, .injectPlatoFrontlight]
    else
      [.print .chordSwitchToPlato, .setActiveApp .plato,
        .system "killall -9 luajit netsurf-fb 2>/dev/null || true"]
  else if arrival.event.code = 193 then
    if arrival.files.getActiveApp = App.netsurf.name then
      [.print .chordCloseNetsurf, .setActiveApp .koreader,
        .system "killall -9 netsurf-fb 2>/dev/null || true"]
    else
      [.print .chordLaunchNetsurf, .setActiveApp .netsurf,
        .system "killall -9 luajit ld-2.19.so plato 2>/dev/null || true"]
  else if media then [.print .chordMediaBackground]
  else [.print .chordMediaActive]

/-- A page key goes down while Home is held. -/
def chord (arrival : Arrival) (view : HomeView) : HomeView × List Effect :=
  ({ view with
      combo := !isDialogChord arrival
      pending := false
      media := if arrival.event.code = 194 then !view.media else false },
    chordEffects arrival view.media)

/-- The gestural effects of a media-mode button. -/
def mediaEffects (code : Nat) : List Effect :=
  if code = 191 then
    [.print .mediaPrevTrack, .system "/opt/audiocontrol.sh prev 2>/dev/null &"]
  else if code = 192 then
    [.print .mediaShuffle, .system "/opt/audiocontrol.sh shuffle 2>/dev/null &"]
  else if code = 193 then
    [.print .mediaNextTrack, .system "/opt/audiocontrol.sh next 2>/dev/null &"]
  else [.print .mediaPlayPause, pauseCommand]

/-- A page key: a chord, a button of media mode, or the key itself. -/
def page (arrival : Arrival) (view : HomeView) : HomeView × List Effect :=
  if arrival.event.value = 1 then
    if view.down then view.chord arrival
    else if view.media then (view, mediaEffects arrival.event.code)
    else (view, [.emit arrival.event])
  else if arrival.event.value = 0 then
    if view.combo || view.media then (view, []) else (view, [.emit arrival.event])
  else (view, [])

/-- One event, by its key. -/
def handle (arrival : Arrival) (view : HomeView) : HomeView × List Effect :=
  if arrival.event.type = evKey ∧ arrival.event.code = keyHome then
    if arrival.event.value = 1 then view.homeDown arrival.now
    else if arrival.event.value = 0 then view.homeUp arrival.now
    else (view, [])
  else if arrival.event.type = evKey ∧ isPageKey arrival.event.code then view.page arrival
  -- the lid and the pass-through events never touch the view
  else (view, gestural (Watcher.handle arrival {}).2)

/-- One pass: the loop top, then the event if one came. -/
def pass (view : HomeView) (input : Pass) : HomeView × List Effect :=
  let top := view.sweep input.top
  match input.arrival with
  | none => top
  | some arrival => ((top.1.handle arrival).1, top.2 ++ (top.1.handle arrival).2)

end HomeView

/-! ## What each move does to the flags -/

namespace HomeView

variable (now : UInt64) (arrival : Arrival) (view : HomeView)

/-- A release takes Home and the chord down, and the one flag it answered to. -/
theorem homeUp_flags :
    (view.homeUp now).1.down = false ∧ (view.homeUp now).1.combo = false ∧
      (view.homeUp now).1.long = (view.long && view.combo) ∧
      (view.homeUp now).1.double = (view.double && (view.combo || view.long)) ∧
      (view.homeUp now).1.media = view.media := by
  obtain ⟨down, combo, pending, long, double, media, downTime, singleTime⟩ := view
  cases combo <;> cases long <;> cases double <;> cases media <;>
    exact ⟨rfl, rfl, rfl, rfl, rfl⟩

/-- A chord marks Home as used, except the dialog chord, which gives it back. -/
theorem chord_flags :
    (view.chord arrival).1.down = view.down ∧
      (view.chord arrival).1.combo = !isDialogChord arrival ∧
      (view.chord arrival).1.pending = false ∧ (view.chord arrival).1.long = view.long ∧
      (view.chord arrival).1.double = view.double :=
  ⟨rfl, rfl, rfl, rfl, rfl⟩

/-- A page event is a chord, or leaves the automaton where it was. -/
theorem page_cases :
    arrival.event.value = 1 ∧ view.down = true ∧ view.page arrival = view.chord arrival ∨
      (view.page arrival).1 = view ∧
        (arrival.event.value = 1 → view.down = false) := by
  unfold page
  by_cases pressed : arrival.event.value = 1
  · cases down : view.down with
    | true => exact .inl ⟨pressed, rfl, by simp [pressed]⟩
    | false =>
        refine .inr ⟨?_, fun _ => rfl⟩
        simp only [pressed, if_true, Bool.false_eq_true, if_false]
        split <;> rfl
  · refine .inr ⟨?_, fun press => absurd press pressed⟩
    simp only [pressed, if_false]
    split
    · split <;> rfl
    · rfl

end HomeView

/-! ## Overlay calls are invisible -/

/-- No effects hold no gestural ones. -/
@[simp] theorem gestural_nil : gestural [] = [] := rfl

/-- The gestural effects of two lists are those of the one and then those of the other. -/
@[simp] theorem gestural_append (first second : List Effect) :
    gestural (first ++ second) = gestural first ++ gestural second :=
  List.filter_append ..

/-- The first effect counts if it is gestural. -/
@[simp] theorem gestural_cons (effect : Effect) (rest : List Effect) :
    gestural (effect :: rest) =
      if effect.isGestural then effect :: gestural rest else gestural rest :=
  List.filter_cons

/-- Two handlers in a row leave the state the second leaves. -/
@[simp] theorem andThen_fst (first : State × List Effect)
    (second : State → State × List Effect) : (andThen first second).1 = (second first.1).1 := rfl

/-- Two handlers in a row have the effects of both, in order. -/
@[simp] theorem andThen_snd (first : State × List Effect)
    (second : State → State × List Effect) :
    (andThen first second).2 = first.2 ++ (second first.1).2 := rfl

/-- Opening the framebuffer is not seen by the Home key. -/
@[simp] theorem fbInit_homeView (outcome : FbOutcome) (state : State) :
    (state.fbInit outcome).homeView = state.homeView := by
  unfold State.fbInit
  split
  · rfl
  · split <;> rfl

/-- Hiding the toast is not seen by the Home key. -/
@[simp] theorem hideToast_homeView (state : State) :
    (hideToast state).1.homeView = state.homeView := by
  unfold hideToast
  split <;> rfl

/-- Hiding the toast is no gesture. -/
@[simp] theorem hideToast_gestural (state : State) : gestural (hideToast state).2 = [] := by
  unfold hideToast
  split <;> rfl

/-- Showing a toast is not seen by the Home key. -/
@[simp] theorem showToast_homeView (title subtitle : String) (now : UInt64)
    (outcome : FbOutcome) (state : State) :
    (showToast title subtitle now outcome state).1.homeView = state.homeView := by
  simp only [showToast]
  split
  · simp
  · exact fbInit_homeView outcome state

/-- Showing a toast is no gesture. -/
@[simp] theorem showToast_gestural (title subtitle : String) (now : UInt64)
    (outcome : FbOutcome) (state : State) :
    gestural (showToast title subtitle now outcome state).2 = [] := by
  simp only [showToast]
  split <;> rfl

/-- Hiding the media card is not seen by the Home key. -/
@[simp] theorem hideMediaCard_homeView (state : State) :
    (hideMediaCard state).1.homeView = state.homeView := by
  unfold hideMediaCard
  split <;> rfl

/-- Hiding the media card is no gesture. -/
@[simp] theorem hideMediaCard_gestural (state : State) :
    gestural (hideMediaCard state).2 = [] := by
  unfold hideMediaCard
  split <;> rfl

/-- Showing the media card is not seen by the Home key. -/
@[simp] theorem showMediaCard_homeView (status : String) (outcome : FbOutcome)
    (state : State) : (showMediaCard status outcome state).1.homeView = state.homeView := by
  simp only [showMediaCard]
  split
  · simp
  · exact fbInit_homeView outcome state

/-- Showing the media card is no gesture. -/
@[simp] theorem showMediaCard_gestural (status : String) (outcome : FbOutcome)
    (state : State) : gestural (showMediaCard status outcome state).2 = [] := by
  simp only [showMediaCard]
  split <;> rfl

/-! ## The loop top -/

/-- A stage of the loop top moves the view and appends gestural effects as the
given automaton stage does. -/
def Sweep.Follows (before after : Sweep) (stage : HomeView × List Effect) : Prop :=
  after.state.homeView = stage.1 ∧ gestural after.effects = gestural before.effects ++ stage.2

/-- A shorter timeout changes nothing else. -/
theorem Sweep.tighten_state (sweep : Sweep) (rem : Int) :
    (sweep.tighten rem).state = sweep.state ∧ (sweep.tighten rem).effects = sweep.effects := by
  unfold Sweep.tighten
  split <;> exact ⟨rfl, rfl⟩

/-- A stage that only waits is a stage in which the automaton stands still. -/
theorem Sweep.tighten_follows (sweep : Sweep) (rem : Int) :
    sweep.Follows (sweep.tighten rem) (sweep.state.homeView, []) := by
  obtain ⟨sameState, sameEffects⟩ := sweep.tighten_state rem
  exact ⟨by rw [sameState], by rw [sameEffects, List.append_nil]⟩

/-- What a stage of the loop top leaves behind: its action when its time has come, a shorter
timeout while it waits, nothing when it has nothing to wait for. -/
inductive Sweep.Stage (sweep fired : Sweep) : Sweep → Prop where
  | fires : Sweep.Stage sweep fired fired
  | waits (rem : Int) : Sweep.Stage sweep fired (sweep.tighten rem)
  | idle : Sweep.Stage sweep fired sweep

/-- All four stages have this form. -/
theorem Sweep.stage_of_ite (waiting : Bool) (rem : Int) (sweep fired : Sweep) :
    sweep.Stage fired
      (if waiting then (if rem ≤ 0 then fired else sweep.tighten rem) else sweep) := by
  split
  · split
    · exact .fires
    · exact .waits rem
  · exact .idle

/-- The toast's stage hides it, waits or is idle. -/
theorem Sweep.toast_stage (now : UInt64) (sweep : Sweep) :
    sweep.Stage
      { sweep with
        state := (hideToast sweep.state).1
        effects := sweep.effects ++ (hideToast sweep.state).2 }
      (sweep.toast now) :=
  stage_of_ite sweep.state.toastActive (remaining sweep.state.toastExpireTime now) sweep _

/-- The power key's stage emits its tap, waits or is idle. -/
theorem Sweep.power_stage (now : UInt64) (sweep : Sweep) :
    sweep.Stage
      { sweep with
        state := { sweep.state with powerPending := false }
        effects := sweep.effects ++ .print .powerSingleTap :: emitKeyClick keyPower }
      (sweep.power now) :=
  stage_of_ite sweep.state.powerPending
    (remaining (sweep.state.powerDownTime + powerDoubleClickMs) now) sweep _

/-- The long press's stage emits it, waits or is idle. -/
theorem Sweep.longPress_stage (now : UInt64) (sweep : Sweep) :
    sweep.Stage
      { sweep with
        state := { sweep.state with homeLongSent := true, homePendingSingle := false }
        effects := sweep.effects ++
          [.print .homeLongPressDetected, emitKey keyHome 1, emitSyn] }
      (sweep.longPress now) :=
  stage_of_ite
    (sweep.state.homeDown && !sweep.state.homeComboConsumed && !sweep.state.homeLongSent)
    (remaining (sweep.state.homeDownTime + homeLongPressMs) now) sweep _

/-- The single tap's stage emits it, waits or is idle. -/
theorem Sweep.singleTap_stage (now : UInt64) (sweep : Sweep) :
    sweep.Stage
      { sweep with
        state := { sweep.state with homePendingSingle := false }
        effects := sweep.effects ++ .print .homeSingleTap :: emitKeyClick keyHome }
      (sweep.singleTap now) :=
  stage_of_ite sweep.state.homePendingSingle
    (remaining (sweep.state.homeSingleTime + powerDoubleClickMs) now) sweep _

/-- A stage whose action is invisible to the automaton is invisible. -/
theorem Sweep.Stage.follows_still {sweep fired after : Sweep} (stage : sweep.Stage fired after)
    (fires : sweep.Follows fired (sweep.state.homeView, [])) :
    sweep.Follows after (sweep.state.homeView, []) := by
  cases stage with
  | fires => exact fires
  | waits rem => exact sweep.tighten_follows rem
  | idle => exact ⟨rfl, (List.append_nil _).symm⟩

/-- The toast's stage does not move the automaton. -/
theorem Sweep.toast_follows (now : UInt64) (sweep : Sweep) :
    sweep.Follows (sweep.toast now) (sweep.state.homeView, []) :=
  (sweep.toast_stage now).follows_still ⟨hideToast_homeView _, by simp⟩

/-- The power key's stage does not move the automaton. -/
theorem Sweep.power_follows (now : UInt64) (sweep : Sweep) :
    sweep.Follows (sweep.power now) (sweep.state.homeView, []) := by
  refine (sweep.power_stage now).follows_still ⟨rfl, ?_⟩
  rw [gestural_append]
  rfl

/-- The long press's stage is the automaton's. -/
theorem Sweep.longPress_follows (now : UInt64) (sweep : Sweep) :
    sweep.Follows (sweep.longPress now) (sweep.state.homeView.sweepLong now) := by
  unfold Sweep.longPress HomeView.sweepLong HomeView.longDue
  simp only [State.homeView_down, State.homeView_combo, State.homeView_long,
    State.homeView_downTime]
  cases (sweep.state.homeDown && !sweep.state.homeComboConsumed &&
      !sweep.state.homeLongSent) with
  | false => exact ⟨rfl, by simp⟩
  | true =>
      by_cases due : remaining (sweep.state.homeDownTime + homeLongPressMs) now ≤ 0
      · simp only [due, if_true, decide_true, Bool.and_self]
        refine ⟨rfl, ?_⟩
        simp only [gestural_append]
        rfl
      · simp only [due, if_true, if_false, decide_false, Bool.and_false, Bool.false_eq_true]
        exact sweep.tighten_follows _

/-- The single tap's stage is the automaton's. -/
theorem Sweep.singleTap_follows (now : UInt64) (sweep : Sweep) :
    sweep.Follows (sweep.singleTap now) (sweep.state.homeView.sweepSingle now) := by
  unfold Sweep.singleTap HomeView.sweepSingle HomeView.singleDue
  simp only [State.homeView_pending, State.homeView_singleTime]
  by_cases armed : sweep.state.homePendingSingle = true
  · by_cases due : remaining (sweep.state.homeSingleTime + powerDoubleClickMs) now ≤ 0
    · simp only [armed, due, if_true, decide_true, Bool.and_self]
      refine ⟨rfl, ?_⟩
      simp only [gestural_append]
      rfl
    · simp only [armed, due, if_true, if_false, decide_false, Bool.and_false,
        Bool.false_eq_true]
      exact sweep.tighten_follows _
  · simp only [armed, if_false, Bool.false_and, Bool.false_eq_true]
    exact ⟨rfl, by simp⟩

/-- The loop top is the automaton's sweep. -/
theorem sweep_homeView (now : UInt64) (state : State) :
    (sweep now state).state.homeView = (state.homeView.sweep now).1 ∧
      gestural (sweep now state).effects = (state.homeView.sweep now).2 := by
  obtain ⟨toastView, toastEffects⟩ := Sweep.toast_follows now { state := state : Sweep }
  obtain ⟨powerView, powerEffects⟩ := Sweep.power_follows now ({ state := state : Sweep }.toast now)
  obtain ⟨longView, longEffects⟩ :=
    Sweep.longPress_follows now (({ state := state : Sweep }.toast now).power now)
  obtain ⟨singleView, singleEffects⟩ := Sweep.singleTap_follows now
    ((({ state := state : Sweep }.toast now).power now).longPress now)
  unfold sweep HomeView.sweep
  rw [singleView, singleEffects, longView, longEffects, powerView, powerEffects, toastView,
    toastEffects]
  simp

/-! ## The event handlers -/

/-- A playback toggle is its line and its command, and moves no flag. -/
theorem togglePlayback_homeView (message : Message) (outcome : FbOutcome) (state : State)
    (shown : message.isPower = false) :
    (togglePlayback message outcome state).1.homeView = state.homeView ∧
      gestural (togglePlayback message outcome state).2 =
        [.print message, HomeView.pauseCommand] := by
  refine ⟨by simp [togglePlayback], ?_⟩
  simp [togglePlayback, shown, HomeView.pauseCommand, Effect.isGestural]

/-- Home down is the automaton's, flags and gestural effects. -/
theorem handleHomeDown_homeView (arrival : Arrival) (state : State) :
    (handleHomeDown arrival state).1.homeView = (state.homeView.homeDown arrival.now).1 ∧
      gestural (handleHomeDown arrival state).2 =
        (state.homeView.homeDown arrival.now).2 := by
  have same : state.homeView.doubleTap arrival.now = isDoubleTap arrival.now state := rfl
  unfold handleHomeDown HomeView.homeDown
  rw [same]
  cases isDoubleTap arrival.now state with
  | false => exact ⟨by ext <;> simp, rfl⟩
  | true =>
      obtain ⟨view, effects⟩ := togglePlayback_homeView .homeDoubleTap arrival.fb
        { state with homePendingSingle := false, homeDoubleConsumed := true } rfl
      have media := congrArg HomeView.media view
      have double := congrArg HomeView.double view
      have singleTime := congrArg HomeView.singleTime view
      simp only [State.homeView_media, State.homeView_double, State.homeView_singleTime]
        at media double singleTime
      exact ⟨by ext <;> simp [media, double, singleTime], effects⟩

/-- Home up is the automaton's, flags and gestural effects. -/
theorem handleHomeUp_homeView (arrival : Arrival) (state : State) :
    (handleHomeUp arrival state).1.homeView = (state.homeView.homeUp arrival.now).1 ∧
      gestural (handleHomeUp arrival state).2 = (state.homeView.homeUp arrival.now).2 := by
  unfold handleHomeUp HomeView.homeUp
  simp only [State.homeView_combo, State.homeView_long, State.homeView_double,
    State.homeView_media]
  cases state.homeComboConsumed with
  | true => exact ⟨rfl, rfl⟩
  | false =>
      cases state.homeLongSent with
      | true => exact ⟨rfl, rfl⟩
      | false =>
          cases state.homeDoubleConsumed with
          | true => exact ⟨rfl, rfl⟩
          | false =>
              cases state.mediaMode with
              | true => exact togglePlayback_homeView .homeTapInMediaMode arrival.fb _ rfl
              | false => exact ⟨rfl, rfl⟩

/-- Leaving media mode clears its flag and nothing else. -/
theorem leaveMediaMode_homeView (state : State) :
    (leaveMediaMode state).1.homeView = { state.homeView with media := false } ∧
      gestural (leaveMediaMode state).2 = [] := by
  unfold leaveMediaMode
  split
  · refine ⟨?_, hideMediaCard_gestural state⟩
    have view := hideMediaCard_homeView state
    exact congrArg (fun view : HomeView => { view with media := false }) view
  · rename_i off
    refine ⟨?_, rfl⟩
    ext <;> simp_all

/-- A switch of the application is its line, the request and the kill, and moves no flag. -/
theorem switchTo_homeView (message : Message) (title subtitle : String) (app : App)
    (kill : String) (arrival : Arrival) (state : State)
    (shown : message.isPower = false) (run : (Effect.system kill).isGestural = true) :
    (switchTo message title subtitle app kill arrival state).1.homeView = state.homeView ∧
      gestural (switchTo message title subtitle app kill arrival state).2 =
        [.print message, .setActiveApp app, .system kill] := by
  refine ⟨by simp [switchTo], ?_⟩
  have printed : (Effect.print message).isGestural = true := by
    simp [Effect.isGestural, shown]
  have written : (Effect.setActiveApp app).isGestural = true := rfl
  simp [switchTo, printed, run, written]

/-- A chord that switches applications leaves media mode and keeps the rest. -/
theorem leaveMediaMode_switchTo_homeView (message : Message) (title subtitle : String)
    (app : App) (kill : String) (arrival : Arrival) (state : State)
    (shown : message.isPower = false) (run : (Effect.system kill).isGestural = true) :
    (andThen (leaveMediaMode state)
        (switchTo message title subtitle app kill arrival)).1.homeView =
      { state.homeView with media := false } ∧
    gestural (andThen (leaveMediaMode state)
        (switchTo message title subtitle app kill arrival)).2 =
      [.print message, .setActiveApp app, .system kill] := by
  obtain ⟨leftView, leftEffects⟩ := leaveMediaMode_homeView state
  obtain ⟨view, effects⟩ := switchTo_homeView message title subtitle app kill arrival
    (leaveMediaMode state).1 shown run
  constructor
  · rw [andThen_fst, view, leftView]
  · rw [andThen_snd, gestural_append, leftEffects, effects, List.nil_append]

/-- The top left chord leaves media mode and has the automaton's effects. -/
theorem chordTopLeft_homeView (arrival : Arrival) (state : State) (media : Bool)
    (code : arrival.event.code = 191) :
    (chordTopLeft arrival state).1.homeView =
      { state.homeView with
        media := false
        combo := state.homeComboConsumed && !HomeView.isDialogChord arrival } ∧
    gestural (chordTopLeft arrival state).2 = HomeView.chordEffects arrival media := by
  by_cases here : arrival.files.getActiveApp = App.koreader.name
  · obtain ⟨leftView, leftEffects⟩ := leaveMediaMode_homeView state
    have view := showToast_homeView "FRONTLIGHT DIALOG" "KOReader Warmth & Brightness"
      arrival.now arrival.fb (leaveMediaMode state).1
    rw [leftView] at view
    -- the synthetic hold gives the combo flag back
    have cleared := congrArg (fun view : HomeView => { view with combo := false }) view
    simp only [chordTopLeft, here, if_true, andThen_fst]
    refine ⟨cleared.trans ?_, ?_⟩
    · ext <;> simp [HomeView.isDialogChord, code, here]
    · simp [leftEffects, HomeView.chordEffects, code, here, Effect.isGestural,
        Message.isPower, emitKey, emitSyn, evKey, evSyn, keyHome, keyPower]
  · obtain ⟨view, effects⟩ := leaveMediaMode_switchTo_homeView .chordSwitchToKoreader
      "SWITCHING TO KOREADER..." "Document & Book Reader" .koreader
      "killall -9 ld-2.19.so plato netsurf-fb 2>/dev/null || true" arrival state rfl
      (by decide)
    simp only [chordTopLeft, here, if_false]
    refine ⟨view.trans ?_, effects.trans ?_⟩
    · ext <;> simp [HomeView.isDialogChord, here]
    · simp [HomeView.chordEffects, code, here]

/-- The bottom left chord leaves media mode and has the automaton's effects. -/
theorem chordBottomLeft_homeView (arrival : Arrival) (state : State) (media : Bool)
    (code : arrival.event.code = 192) :
    (chordBottomLeft arrival state).1.homeView = { state.homeView with media := false } ∧
    gestural (chordBottomLeft arrival state).2 = HomeView.chordEffects arrival media := by
  by_cases here : arrival.files.getActiveApp = App.plato.name
  · obtain ⟨leftView, leftEffects⟩ := leaveMediaMode_homeView state
    refine ⟨by simp [chordBottomLeft, here, leftView], ?_⟩
    simp [chordBottomLeft, leftEffects, HomeView.chordEffects, code, here,
      Effect.isGestural, Message.isPower]
  · obtain ⟨view, effects⟩ := leaveMediaMode_switchTo_homeView .chordSwitchToPlato
      "SWITCHING TO PLATO..." "Fast Touch-Driven Rust Reader" .plato
      "killall -9 luajit netsurf-fb 2>/dev/null || true" arrival state rfl (by decide)
    simp only [chordBottomLeft, here, if_false]
    exact ⟨view, effects.trans (by simp [HomeView.chordEffects, code, here])⟩

/-- The top right chord leaves media mode and has the automaton's effects. -/
theorem chordTopRight_homeView (arrival : Arrival) (state : State) (media : Bool)
    (code : arrival.event.code = 193) :
    (chordTopRight arrival state).1.homeView = { state.homeView with media := false } ∧
    gestural (chordTopRight arrival state).2 = HomeView.chordEffects arrival media := by
  by_cases here : arrival.files.getActiveApp = App.netsurf.name
  · obtain ⟨view, effects⟩ := leaveMediaMode_switchTo_homeView .chordCloseNetsurf
      "CLOSING NETSURF..." "Returning to Document Reader" .koreader
      "killall -9 netsurf-fb 2>/dev/null || true" arrival state rfl (by decide)
    simp only [chordTopRight, here, if_true]
    exact ⟨view, effects.trans (by simp [HomeView.chordEffects, code, here])⟩
  · obtain ⟨view, effects⟩ := leaveMediaMode_switchTo_homeView .chordLaunchNetsurf
      "LAUNCHING NETSURF..." "E-Ink Optimized Web Browser" .netsurf
      "killall -9 luajit ld-2.19.so plato 2>/dev/null || true" arrival state rfl (by decide)
    simp only [chordTopRight, here, if_false]
    exact ⟨view, effects.trans (by simp [HomeView.chordEffects, code, here])⟩

/-- The bottom right chord turns media mode over and has the automaton's effects. -/
theorem chordBottomRight_homeView (arrival : Arrival) (state : State)
    (code : arrival.event.code = 194) :
    (chordBottomRight arrival state).1.homeView =
      { state.homeView with media := !state.mediaMode } ∧
    gestural (chordBottomRight arrival state).2 =
      HomeView.chordEffects arrival state.mediaMode := by
  cases mode : state.mediaMode with
  | true =>
      refine ⟨?_, ?_⟩
      · simp only [chordBottomRight, mode, Bool.not_true, Bool.false_eq_true, if_false,
          andThen_fst, showToast_homeView, hideMediaCard_homeView]
        rfl
      · simp [chordBottomRight, mode, HomeView.chordEffects, code, Effect.isGestural,
          Message.isPower]
  | false =>
      refine ⟨?_, ?_⟩
      · simp only [chordBottomRight, mode, Bool.not_false, if_true, andThen_fst,
          showMediaCard_homeView]
        rfl
      · simp [chordBottomRight, mode, HomeView.chordEffects, code, Effect.isGestural,
          Message.isPower]

/-- There are four page keys. -/
theorem pageKey_cases {code : Nat} (page : isPageKey code = true) :
    code = 191 ∨ code = 192 ∨ code = 193 ∨ code = 194 := by
  simp only [isPageKey, Bool.and_eq_true, decide_eq_true_eq] at page
  omega

/-- Every chord moves the view and acts as `HomeView.chord` says. -/
theorem handleChord_homeView (arrival : Arrival) (state : State)
    (page : isPageKey arrival.event.code = true) :
    (handleChord arrival state).1.homeView = (state.homeView.chord arrival).1 ∧
      gestural (handleChord arrival state).2 = (state.homeView.chord arrival).2 := by
  unfold handleChord HomeView.chord
  rcases pageKey_cases page with code | code | code | code
  · obtain ⟨view, effects⟩ := chordTopLeft_homeView arrival
      { state with homeComboConsumed := true, homePendingSingle := false }
      state.mediaMode code
    simp only [code, if_true]
    exact ⟨view.trans (by ext <;> simp), effects⟩
  · obtain ⟨view, effects⟩ := chordBottomLeft_homeView arrival
      { state with homeComboConsumed := true, homePendingSingle := false }
      state.mediaMode code
    simp only [code, if_true]
    exact ⟨view.trans (by ext <;> simp [HomeView.isDialogChord, code]), effects⟩
  · obtain ⟨view, effects⟩ := chordTopRight_homeView arrival
      { state with homeComboConsumed := true, homePendingSingle := false }
      state.mediaMode code
    simp only [code, if_true]
    exact ⟨view.trans (by ext <;> simp [HomeView.isDialogChord, code]), effects⟩
  · obtain ⟨view, effects⟩ := chordBottomRight_homeView arrival
      { state with homeComboConsumed := true, homePendingSingle := false } code
    simp only [code, if_true]
    exact ⟨view.trans (by ext <;> simp [HomeView.isDialogChord, code]), effects⟩

/-- A button of media mode moves no flag and has the automaton's effects. -/
theorem handleMediaKey_homeView (arrival : Arrival) (state : State)
    (page : isPageKey arrival.event.code = true) :
    (handleMediaKey arrival state).1.homeView = state.homeView ∧
      gestural (handleMediaKey arrival state).2 =
        HomeView.mediaEffects arrival.event.code := by
  unfold handleMediaKey HomeView.mediaEffects
  rcases pageKey_cases page with code | code | code | code
  · refine ⟨by simp [code, mediaButton], ?_⟩
    simp [code, mediaButton, Effect.isGestural, Message.isPower]
  · refine ⟨by simp [code, mediaButton], ?_⟩
    simp [code, mediaButton, Effect.isGestural, Message.isPower]
  · refine ⟨by simp [code, mediaButton], ?_⟩
    simp [code, mediaButton, Effect.isGestural, Message.isPower]
  · simp only [code]
    exact togglePlayback_homeView .mediaPlayPause arrival.fb state rfl

/-- A page key is the automaton's, flags and gestural effects. -/
theorem handlePage_homeView (arrival : Arrival) (state : State)
    (key : arrival.event.type = evKey) (page : isPageKey arrival.event.code = true) :
    (handlePage arrival state).1.homeView = (state.homeView.page arrival).1 ∧
      gestural (handlePage arrival state).2 = (state.homeView.page arrival).2 := by
  have notPower : arrival.event.code ≠ keyPower := by
    rcases pageKey_cases page with code | code | code | code <;> simp [code, keyPower]
  have forwarded : gestural [.emit arrival.event] = [.emit arrival.event] := by
    simp [Effect.isGestural, key, notPower, evKey, evSyn]
  unfold handlePage HomeView.page
  simp only [State.homeView_down, State.homeView_media, State.homeView_combo]
  by_cases pressed : arrival.event.value = 1
  · simp only [pressed, if_true]
    cases state.homeDown with
    | true => exact handleChord_homeView arrival state page
    | false =>
        cases state.mediaMode with
        | true => exact handleMediaKey_homeView arrival state page
        | false => exact ⟨rfl, forwarded⟩
  · simp only [pressed, if_false]
    by_cases released : arrival.event.value = 0
    · simp only [released, if_true]
      cases state.homeComboConsumed || state.mediaMode with
      | true => exact ⟨rfl, rfl⟩
      | false => exact ⟨rfl, forwarded⟩
    · simp [released]

/-- The power key moves no flag of the Home key and is no gesture of it. -/
theorem handlePower_homeView (arrival : Arrival) (state : State) :
    (handlePower arrival state).1.homeView = state.homeView ∧
      gestural (handlePower arrival state).2 = [] := by
  unfold handlePower
  split
  · split
    · exact ⟨rfl, by simp [Effect.isGestural, Message.isPower]⟩
    · exact ⟨rfl, rfl⟩
  · exact ⟨rfl, rfl⟩

/-- The dispatch on an event is the automaton's. -/
theorem handle_homeView (arrival : Arrival) (state : State) :
    (handle arrival state).1.homeView = (state.homeView.handle arrival).1 ∧
      gestural (handle arrival state).2 = (state.homeView.handle arrival).2 := by
  unfold HomeView.handle handle
  by_cases power : arrival.event.type = evKey ∧ arrival.event.code = keyPower
  · obtain ⟨view, effects⟩ := handlePower_homeView arrival state
    obtain ⟨_, idle⟩ := handlePower_homeView arrival {}
    simp [power, keyPower, keyHome, isPageKey, view, effects, idle]
  · simp only [power, if_false]
    by_cases home : arrival.event.type = evKey ∧ arrival.event.code = keyHome
    · simp only [home, and_self, if_true, handleHome]
      by_cases pressed : arrival.event.value = 1
      · simp only [pressed, if_true]
        exact handleHomeDown_homeView arrival state
      · simp only [pressed, if_false]
        by_cases released : arrival.event.value = 0
        · simp only [released, if_true]
          exact handleHomeUp_homeView arrival state
        · simp [released]
    · simp only [home, if_false]
      by_cases page : arrival.event.type = evKey ∧ isPageKey arrival.event.code = true
      · simp only [page, and_self, if_true]
        exact handlePage_homeView arrival state page.1 page.2
      · simp only [page, if_false]
        split
        · exact ⟨rfl, rfl⟩
        · split <;> exact ⟨rfl, rfl⟩

/-- One pass of the main loop refines one pass of the automaton. -/
theorem pass_homeView (state : State) (input : Pass) :
    (pass state input).1.homeView = (state.homeView.pass input).1 ∧
      gestural (pass state input).2 = (state.homeView.pass input).2 := by
  obtain ⟨topView, topEffects⟩ := sweep_homeView input.top state
  unfold pass HomeView.pass
  cases input.arrival with
  | none => exact ⟨topView, topEffects⟩
  | some arrival =>
      obtain ⟨view, effects⟩ := handle_homeView arrival (sweep input.top state).state
      simp only [andThen_fst, andThen_snd, gestural_append]
      rw [view, effects, topEffects, topView]
      exact ⟨rfl, rfl⟩

end Nookobo.Watcher
