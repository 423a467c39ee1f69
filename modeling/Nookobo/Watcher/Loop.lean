import Nookobo.Watcher.State

/-!
# The button watcher: the main loop

`sweep` is the loop top (overlay expiry and the three key timers, in source
order), `handle` the dispatch on the event that was read, and `pass` one
complete iteration. Handlers return the new variables with the effects of
their statements in order.
-/

namespace Nookobo.Watcher

/-! ## Overlays -/

namespace State

/-- `fb_init`: maps the framebuffer once and allocates both backups. -/
def fbInit (outcome : FbOutcome) (state : State) : State :=
  if state.fbMem then state
  else if outcome.mapped then
    { state with
      fbMem := true
      toastBackup := outcome.toastAllocated
      cardBackup := outcome.cardAllocated }
  else state

end State

/-- `hide_toast`. -/
def hideToast (state : State) : State × List Effect :=
  if !state.toastActive || !state.fbMem || !state.toastBackup then (state, [])
  else ({ state with toastActive := false }, [.hideToast])

/-- `show_toast`. -/
def showToast (title subtitle : String) (now : UInt64) (outcome : FbOutcome)
    (state : State) : State × List Effect :=
  let state := state.fbInit outcome
  if !state.fbMem then (state, [])
  else
    ({ state with toastActive := true, toastExpireTime := now + 2200 },
      [.showToast title subtitle])

/-- `hide_media_card`. -/
def hideMediaCard (state : State) : State × List Effect :=
  if !state.cardActive || !state.fbMem || !state.cardBackup then (state, [])
  else ({ state with cardActive := false }, [.hideMediaCard])

/-- `show_media_card`. -/
def showMediaCard (status : String) (outcome : FbOutcome) (state : State) :
    State × List Effect :=
  let state := state.fbInit outcome
  if !state.fbMem then (state, [])
  else ({ state with cardActive := true }, [.showMediaCard status])

/-- Run a second handler in the state the first one leaves. -/
def andThen (first : State × List Effect) (second : State → State × List Effect) :
    State × List Effect :=
  let next := second first.1
  (next.1, first.2 ++ next.2)

/-! ## Writing to the uinput device -/

/-- `emit_key`. -/
def emitKey (code : Nat) (value : Int) : Effect := .emit ⟨evKey, code, value⟩

/-- `emit_syn`. -/
def emitSyn : Effect := .emit ⟨evSyn, 0, 0⟩

/-- `emit_key_click`: press, 20 ms, release. -/
def emitKeyClick (code : Nat) : List Effect :=
  [emitKey code 1, emitSyn, .usleep 20000, emitKey code 0, emitSyn]

/-! ## The loop top -/

/-- `(int)(deadline - now)`: unsigned 64-bit subtraction, then the low 32 bits
read as a signed number. -/
def remaining (deadline now : UInt64) : Int :=
  Int.bmod (deadline - now).toNat 0x100000000

/-- Progress of the loop top: variables, `timeout_ms` and effects so far. -/
structure Sweep where
  state : State
  timeoutMs : Int := 1000
  effects : List Effect := []

namespace Sweep

/-- A timer still running only shortens the `select` timeout. -/
def tighten (sweep : Sweep) (rem : Int) : Sweep :=
  if rem < sweep.timeoutMs then { sweep with timeoutMs := rem } else sweep

/-- Toast expiration check. -/
def toast (now : UInt64) (sweep : Sweep) : Sweep :=
  if sweep.state.toastActive then
    let rem := remaining sweep.state.toastExpireTime now
    if rem ≤ 0 then
      { sweep with
        state := (hideToast sweep.state).1
        effects := sweep.effects ++ (hideToast sweep.state).2 }
    else sweep.tighten rem
  else sweep

/-- Power button single tap timeout. -/
def power (now : UInt64) (sweep : Sweep) : Sweep :=
  if sweep.state.powerPending then
    let rem := remaining (sweep.state.powerDownTime + powerDoubleClickMs) now
    if rem ≤ 0 then
      { sweep with
        state := { sweep.state with powerPending := false }
        effects := sweep.effects ++ .print .powerSingleTap :: emitKeyClick keyPower }
    else sweep.tighten rem
  else sweep

/-- Home button long press check (only if not in a chord). -/
def longPress (now : UInt64) (sweep : Sweep) : Sweep :=
  if sweep.state.homeDown && !sweep.state.homeComboConsumed && !sweep.state.homeLongSent then
    let rem := remaining (sweep.state.homeDownTime + homeLongPressMs) now
    if rem ≤ 0 then
      { sweep with
        state := { sweep.state with homeLongSent := true, homePendingSingle := false }
        effects := sweep.effects ++
          [.print .homeLongPressDetected, emitKey keyHome 1, emitSyn] }
    else sweep.tighten rem
  else sweep

/-- Home button single tap emission, confirmed after the double-tap window. -/
def singleTap (now : UInt64) (sweep : Sweep) : Sweep :=
  if sweep.state.homePendingSingle then
    let rem := remaining (sweep.state.homeSingleTime + powerDoubleClickMs) now
    if rem ≤ 0 then
      { sweep with
        state := { sweep.state with homePendingSingle := false }
        effects := sweep.effects ++ .print .homeSingleTap :: emitKeyClick keyHome }
    else sweep.tighten rem
  else sweep

end Sweep

/-- The whole loop top, up to the call of `select`. -/
def sweep (now : UInt64) (state : State) : Sweep :=
  ((({ state := state : Sweep }.toast now).power now).longPress now).singleTap now

/-! ## Event handlers -/

/-- `KEY_POWER` events. -/
def handlePower (arrival : Arrival) (state : State) : State × List Effect :=
  if arrival.event.value = 1 then
    if state.powerPending && arrival.now - state.powerDownTime ≤ powerDoubleClickMs then
      ({ state with powerPending := false },
        [.print .doublePowerTap, .system "/opt/scripts/toggle_frontlight.sh &"])
    else ({ state with powerPending := true, powerDownTime := arrival.now }, [])
  else (state, [])

/-- The audio toggle shared by the double tap, the media-mode Home tap and the
Bottom Right key of media mode. -/
def togglePlayback (message : Message) (outcome : FbOutcome) (state : State) :
    State × List Effect :=
  andThen (state, [.print message, .system "/opt/audiocontrol.sh pause 2>/dev/null &"])
    (showMediaCard "PLAYBACK: PLAY / PAUSE TOGGLED  >||" outcome)

/-- Second press inside the double-click window. -/
def isDoubleTap (now : UInt64) (state : State) : Bool :=
  state.homePendingSingle && !state.homeDoubleConsumed &&
    now - state.homeSingleTime ≤ powerDoubleClickMs

/-- `KEY_HOME` pressed. -/
def handleHomeDown (arrival : Arrival) (state : State) : State × List Effect :=
  let tapped :=
    if isDoubleTap arrival.now state then
      togglePlayback .homeDoubleTap arrival.fb
        { state with homePendingSingle := false, homeDoubleConsumed := true }
    else (state, [])
  ({ tapped.1 with
      homeDown := true
      homeDownTime := arrival.now
      homeComboConsumed := false
      homeLongSent := false
      homePendingSingle := false },
    tapped.2)

/-- `KEY_HOME` released: only the first matching case clears its flag. -/
def handleHomeUp (arrival : Arrival) (state : State) : State × List Effect :=
  let state := { state with homeDown := false }
  if state.homeComboConsumed then
    ({ state with homeComboConsumed := false }, [])
  else if state.homeLongSent then
    ({ state with homeLongSent := false },
      [.print .homeLongPressReleased, emitKey keyHome 0, emitSyn])
  else if state.homeDoubleConsumed then
    ({ state with homeDoubleConsumed := false }, [])
  else if state.mediaMode then
    togglePlayback .homeTapInMediaMode arrival.fb state
  else
    ({ state with homePendingSingle := true, homeSingleTime := arrival.now }, [])

/-- The branch for the Home key. -/
def handleHome (arrival : Arrival) (state : State) : State × List Effect :=
  if arrival.event.value = 1 then handleHomeDown arrival state
  else if arrival.event.value = 0 then handleHomeUp arrival state
  else (state, [])

/-- `if (media_mode) { hide_media_card(); media_mode = 0; }` -/
def leaveMediaMode (state : State) : State × List Effect :=
  if state.mediaMode then
    ({ (hideMediaCard state).1 with mediaMode := false }, (hideMediaCard state).2)
  else (state, [])

/-- The common tail of the chords that switch applications. -/
def switchTo (message : Message) (title subtitle : String) (app : App) (kill : String)
    (arrival : Arrival) (state : State) : State × List Effect :=
  andThen (state, [.print message]) fun state =>
    andThen (showToast title subtitle arrival.now arrival.fb state) fun state =>
      (state, [.setActiveApp app, .system kill])

/-- Home + Top Left: KOReader, or its frontlight dialog through a synthetic
550 ms hold of the virtual Home key. -/
def chordTopLeft (arrival : Arrival) (state : State) : State × List Effect :=
  andThen (leaveMediaMode state) fun state =>
    if arrival.files.getActiveApp = App.koreader.name then
      andThen (state, [.print .chordKoreaderFrontlight]) fun state =>
        andThen (showToast "FRONTLIGHT DIALOG" "KOReader Warmth & Brightness"
            arrival.now arrival.fb state) fun state =>
          ({ state with homeComboConsumed := false },
            [emitKey keyHome 1, emitSyn, .usleep 550000, emitKey keyHome 0, emitSyn])
    else
      switchTo .chordSwitchToKoreader "SWITCHING TO KOREADER..." "Document & Book Reader"
        .koreader "killall -9 ld-2.19.so plato netsurf-fb 2>/dev/null || true" arrival state

/-- Home + Bottom Left: Plato, or a tap on its frontlight icon. -/
def chordBottomLeft (arrival : Arrival) (state : State) : State × List Effect :=
  andThen (leaveMediaMode state) fun state =>
    if arrival.files.getActiveApp = App.plato.name then
      andThen (state, [.print .chordPlatoFrontlight]) fun state =>
        andThen (showToast "FRONTLIGHT DIALOG" "Opening Plato Warmth & Brightness"
            arrival.now arrival.fb state) fun state =>
          (state, [.injectPlatoFrontlight])
    else
      switchTo .chordSwitchToPlato "SWITCHING TO PLATO..." "Fast Touch-Driven Rust Reader"
        .plato "killall -9 luajit netsurf-fb 2>/dev/null || true" arrival state

/-- Home + Top Right: NetSurf, or back to the reader. -/
def chordTopRight (arrival : Arrival) (state : State) : State × List Effect :=
  andThen (leaveMediaMode state) fun state =>
    if arrival.files.getActiveApp = App.netsurf.name then
      switchTo .chordCloseNetsurf "CLOSING NETSURF..." "Returning to Document Reader"
        .koreader "killall -9 netsurf-fb 2>/dev/null || true" arrival state
    else
      switchTo .chordLaunchNetsurf "LAUNCHING NETSURF..." "E-Ink Optimized Web Browser"
        .netsurf "killall -9 luajit ld-2.19.so plato 2>/dev/null || true" arrival state

/-- Home + Bottom Right: toggle media mode. -/
def chordBottomRight (arrival : Arrival) (state : State) : State × List Effect :=
  let state := { state with mediaMode := !state.mediaMode }
  if state.mediaMode then
    andThen (state, [.print .chordMediaActive])
      (showMediaCard "PLAYBACK ACTIVE: CONTROLS READY" arrival.fb)
  else
    andThen (state, [.print .chordMediaBackground]) fun state =>
      andThen (hideMediaCard state)
        (showToast "READING MODE RESTORED"
          "Audio running in background (Side buttons = Page turns)" arrival.now arrival.fb)

/-- A page key pressed while Home is held. -/
def handleChord (arrival : Arrival) (state : State) : State × List Effect :=
  let state := { state with homeComboConsumed := true, homePendingSingle := false }
  if arrival.event.code = 191 then chordTopLeft arrival state
  else if arrival.event.code = 192 then chordBottomLeft arrival state
  else if arrival.event.code = 193 then chordTopRight arrival state
  else if arrival.event.code = 194 then chordBottomRight arrival state
  else (state, [])

/-- One media-mode button: log line, audio command, card status. -/
def mediaButton (message : Message) (command status : String) (outcome : FbOutcome)
    (state : State) : State × List Effect :=
  andThen (state, [.print message, .system command]) (showMediaCard status outcome)

/-- A page key pressed in media mode. -/
def handleMediaKey (arrival : Arrival) (state : State) : State × List Effect :=
  if arrival.event.code = 191 then
    mediaButton .mediaPrevTrack "/opt/audiocontrol.sh prev 2>/dev/null &"
      "TRACK SKIPPED: PREVIOUS  |<<" arrival.fb state
  else if arrival.event.code = 192 then
    mediaButton .mediaShuffle "/opt/audiocontrol.sh shuffle 2>/dev/null &"
      "PLAYLIST: SHUFFLE TOGGLED" arrival.fb state
  else if arrival.event.code = 193 then
    mediaButton .mediaNextTrack "/opt/audiocontrol.sh next 2>/dev/null &"
      "TRACK SKIPPED: NEXT  >>|" arrival.fb state
  else if arrival.event.code = 194 then
    togglePlayback .mediaPlayPause arrival.fb state
  else (state, [])

/-- `KEY_F9` to `KEY_F12`. -/
def handlePage (arrival : Arrival) (state : State) : State × List Effect :=
  if arrival.event.value = 1 then
    if state.homeDown then handleChord arrival state
    else if state.mediaMode then handleMediaKey arrival state
    else (state, [.emit arrival.event])
  else if arrival.event.value = 0 then
    if state.homeComboConsumed || state.mediaMode then (state, [])
    else (state, [.emit arrival.event])
  else (state, [])

/-- The magnetic cover. Any application but KOReader is suspended directly. -/
def handleLid (arrival : Arrival) (state : State) : State × List Effect :=
  let app := arrival.files.getActiveApp
  let suspend :=
    if arrival.event.value = 1 && app != App.koreader.name then
      [.print (.lidClosed app), .system "echo mem > /sys/power/state 2>/dev/null",
        .print .lidOpen]
    else []
  (state, suspend ++ [.emit arrival.event])

/-- The dispatch on the event that was read. -/
def handle (arrival : Arrival) (state : State) : State × List Effect :=
  let event := arrival.event
  if event.type = evKey ∧ event.code = keyPower then handlePower arrival state
  else if event.type = evKey ∧ event.code = keyHome then handleHome arrival state
  else if event.type = evKey ∧ isPageKey event.code then handlePage arrival state
  else if event.type = evSw ∧ event.code = 0 then handleLid arrival state
  else if event.type = evSw ∨ event.type = evSyn then (state, [.emit event])
  else (state, [])

/-- One complete iteration of the main loop. -/
def pass (state : State) (input : Pass) : State × List Effect :=
  let top := sweep input.top state
  match input.arrival with
  | none => (top.state, top.effects)
  | some arrival => andThen (top.state, top.effects) (handle arrival)

end Nookobo.Watcher
