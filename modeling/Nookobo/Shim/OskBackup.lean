import Nookobo.Semantics.Run
import Nookobo.Shim.Video

/-!
# The page under the keyboard

While the keyboard is up the page's rows live in the backup, otherwise in the
framebuffer; `underneath` is the picture of the page either way. Nothing but the
browser changes it: showing and hiding the keyboard move it from one place to the
other, and everything the keyboard draws lies over it.

The browser's updates are another matter. `SDL_UpdateRect` copies whole rows of the
framebuffer to the backup, and outside the pixels the browser has just painted
these rows show the keyboard. `oskBackup_exact` says along which schedules the page
comes back as if there had been no keyboard.
-/

namespace Nookobo.Shim

open Nookobo.Semantics Nookobo.Text

/-- The part of the shim's state that holds pictures. -/
structure Screen where
  frame : Frame UInt16
  backup : Frame UInt16
  oskActive : Bool

namespace Screen

/-- The screen with a layer drawn over its frame. -/
def draw (layer : Layer UInt16) (screen : Screen) : Screen :=
  { screen with frame := screen.frame.overlay layer }

/-- The page, as far as the shim knows it. -/
def underneath (screen : Screen) : Frame UInt16 :=
  if screen.oskActive then screen.backup else screen.frame

/-- The two show the same page in the rows of the keyboard. -/
def SamePage (before after : Screen) : Prop :=
  ∀ row column, State.inOskRows row = true →
    after.underneath row column = before.underneath row column

namespace SamePage

variable {first second third : Screen}

/-- A screen shows its own page. -/
theorem refl (screen : Screen) : screen.SamePage screen := fun _ _ _ => rfl

/-- Showing the same page carries over two steps. -/
theorem trans (left : first.SamePage second) (right : second.SamePage third) :
    first.SamePage third := fun row column inside =>
  (right row column inside).trans (left row column inside)

/-- What is drawn while the keyboard is up does not reach the page. -/
theorem draw_active (active : first.oskActive = true) (layer : Layer UInt16) :
    first.SamePage (first.draw layer) := by
  intro row column _
  simp [underneath, draw, active]

/-- What is drawn above the keyboard's rows does not reach them. -/
theorem draw_below {limit : Nat} {layer : Layer UInt16} (above : layer.Below limit)
    (fits : limit ≤ oskY) : first.SamePage (first.draw layer) := by
  intro row column inside
  have beyond : limit ≤ row := by
    simp only [State.inOskRows, Bool.and_eq_true, decide_eq_true_eq] at inside
    omega
  have same := Frame.overlay_below above first.frame beyond column
  cases active : first.oskActive with
  | true => simp [underneath, draw, active]
  | false => simpa [underneath, draw, active] using same

end SamePage

/-- One screen is the other with something drawn on it. -/
def Drawn (before after : Screen) : Prop := ∃ layer, after = before.draw layer

namespace Drawn

variable {first second third : Screen}

/-- Drawing nothing is drawing. -/
theorem refl (screen : Screen) : screen.Drawn screen := ⟨.blank, rfl⟩

/-- Drawing once more is still drawing. -/
theorem draw (layer : Layer UInt16) (before : first.Drawn second) :
    first.Drawn (second.draw layer) := by
  obtain ⟨bottom, rfl⟩ := before
  refine ⟨layer.onTop bottom, ?_⟩
  simp only [Screen.draw, Frame.overlay_overlay]

/-- Drawing does not raise or lower the keyboard. -/
theorem oskActive (drawn : first.Drawn second) : second.oskActive = first.oskActive := by
  obtain ⟨layer, rfl⟩ := drawn
  rfl

/-- With the keyboard up, nothing that is only drawn reaches the page. -/
theorem samePage (drawn : first.Drawn second) (active : first.oskActive = true) :
    first.SamePage second := by
  obtain ⟨layer, rfl⟩ := drawn
  exact SamePage.draw_active active layer

end Drawn

end Screen

namespace State

/-- The screen of the shim. -/
def screen (state : State) : Screen := ⟨state.frame, state.backup, state.oskActive⟩

/-! ## Operations that draw nothing -/

section Undrawn

variable (state : State) (font : Font)

/-- A refresh of the panel leaves the screen's contents alone. -/
@[simp] theorem screen_refresh (mode : Refresh) (left top width height : Int) :
    (state.refresh mode left top width height).screen = state.screen := rfl

/-- A key for the page leaves the screen alone. -/
@[simp] theorem screen_oskInjectKey (sym unicode : Nat) :
    (state.oskInjectKey sym unicode).screen = state.screen := rfl

/-- A control key for the page leaves the screen alone. -/
@[simp] theorem screen_sendCtrlKey (sym unicode : Nat) :
    (state.sendCtrlKey sym unicode).screen = state.screen := rfl

/-- A simulated click leaves the screen alone. -/
@[simp] theorem screen_simulateClick (x y : Int) :
    (state.simulateClick x y).screen = state.screen := rfl

/-- A key sent several times leaves the screen alone. -/
@[simp] theorem screen_repeatKey (times sym unicode : Nat) :
    (state.repeatKey times sym unicode).screen = state.screen :=
  view_repeatKey screen_oskInjectKey times sym unicode state

/-- Emptying the browser's address bar leaves the screen to the browser. -/
@[simp] theorem screen_clearBrowserUrlBar :
    state.clearBrowserUrlBar.screen = state.screen :=
  view_clearBrowserUrlBar screen_oskInjectKey screen_sendCtrlKey state

/-- Typing into the browser leaves the screen to the browser. -/
@[simp] theorem screen_typeText (text : List UInt8) :
    (state.typeText text).screen = state.screen :=
  view_typeText screen_oskInjectKey text state

/-- A touch on the page leaves the screen to the browser. -/
@[simp] theorem screen_regularTouch : state.regularTouch.screen = state.screen := by
  unfold regularTouch
  dsimp only
  split
  · rfl
  · split
    · rfl
    · split <;> rfl

end Undrawn

/-! ## Operations that draw -/

section Drawing

variable (state : State) (font : Font)

/-- Drawing in the shim is drawing on its screen. -/
@[simp] theorem screen_draw (layer : Layer UInt16) :
    (state.draw layer).screen = state.screen.draw layer := rfl

/-- The address bar is one layer. -/
@[simp] theorem screen_showUrl :
    (state.showUrl font).screen = state.screen.draw (drawUrlBarOverlay font state.url) := by
  rw [showUrl, screen_refresh, screen_draw]

/-- The preview is one layer. -/
@[simp] theorem screen_showPreview :
    (state.showPreview font).screen =
      state.screen.draw
        (drawOskInputPreview font state.mode.lang state.urlFocused state.url) := rfl

/-- Redrawing the keyboard is one layer. -/
@[simp] theorem screen_redrawOsk :
    (state.redrawOsk font).screen =
      state.screen.draw (drawOsk font state.mode state.urlFocused state.url) := rfl

/-- Presenting the keyboard is one layer. -/
@[simp] theorem screen_presentOsk :
    (state.presentOsk font).screen =
      state.screen.draw (drawOsk font state.mode state.urlFocused state.url) := rfl

/-- A released key is one layer. -/
@[simp] theorem screen_releaseKey (key : OskKey) :
    (state.releaseKey font key).screen =
      state.screen.draw (drawOskKey font state.mode key false) := rfl

/-- An edit of the address is seen on the screen as drawing only. -/
theorem drawn_editUrl (url : List UInt8) :
    state.screen.Drawn (state.editUrl font url).screen := by
  rw [editUrl, screen_showUrl, screen_showPreview]
  exact ((Screen.Drawn.refl state.screen).draw _).draw _

/-- The address bar lies above the keyboard's rows. -/
theorem samePage_showUrl : state.screen.SamePage (state.showUrl font).screen := by
  rw [screen_showUrl]
  exact Screen.SamePage.draw_below (below_drawUrlBarOverlay font state.url) (by decide)

/-! ## Showing and hiding -/

/-- Showing the keyboard saves the page before it covers it. -/
theorem samePage_showOsk : state.screen.SamePage (state.showOsk font).screen := by
  intro row column inside
  unfold showOsk
  split
  · rfl
  · next off =>
    have off : state.oskActive = false := by simpa using off
    have saved : state.backup.copyRows state.frame inOskRows row column =
        state.frame row column := by
      simp [Frame.copyRows, inside]
    rw [screen_presentOsk]
    simpa [screen, Screen.draw, Screen.underneath, off] using saved

/-- After `hide_osk` the keyboard is down. -/
theorem hideOsk_oskActive : state.hideOsk.oskActive = false := by
  unfold hideOsk
  split
  · next off => simpa using off
  · rfl

/-- Hiding the keyboard puts the saved page back. -/
theorem samePage_hideOsk : state.screen.SamePage state.hideOsk.screen := by
  intro row column inside
  unfold hideOsk
  split
  · rfl
  · next active =>
    have active : state.oskActive = true := by simpa using active
    have restored : state.frame.copyRows state.backup inOskRows row column =
        state.backup row column := by
      simp [Frame.copyRows, inside]
    rw [screen_refresh]
    simpa [screen, Screen.underneath, active] using restored

/-- Toggling the keyboard keeps the page. -/
theorem samePage_toggleOsk : state.screen.SamePage (state.toggleOsk font).screen := by
  unfold toggleOsk
  split
  · exact samePage_hideOsk state
  · exact samePage_showOsk state font

/-- Giving the address the focus keeps the page. -/
theorem samePage_focusUrl : state.screen.SamePage (state.focusUrl font).screen := by
  unfold focusUrl
  exact samePage_showOsk _ font

end Drawing

/-! ## Keys of the keyboard -/

section Keys

variable {state : State} (font : Font)

/-- The keys that leave the keyboard up only draw. -/
theorem drawn_pressKey (key : OskKey) (stays : key.action ≠ .hide) (submits : key.action ≠ .enter) :
    state.screen.Drawn (state.pressKey font key).screen := by
  have edited : ∀ (condition : Bool) (url : List UInt8),
      state.screen.Drawn (if condition then state.editUrl font url else state).screen := by
    intro condition url
    cases condition with
    | true => exact drawn_editUrl state font url
    | false => exact .refl _
  unfold pressKey
  cases action : key.action with
  | hide => exact absurd action stays
  | enter => exact absurd action submits
  | clear =>
      simp only [screen_releaseKey, pressClear]
      refine Screen.Drawn.draw _ ?_
      split
      · simp only [screen_clearBrowserUrlBar, screen_simulateClick, screen_showUrl,
          screen_showPreview]
        exact ((Screen.Drawn.refl state.screen).draw _).draw _
      · simp only [screen_repeatKey, screen_sendCtrlKey, screen_showPreview]
        exact (Screen.Drawn.refl state.screen).draw _
  | shift => exact (Screen.Drawn.refl state.screen).draw _
  | symbols => exact (Screen.Drawn.refl state.screen).draw _
  | lang => exact (Screen.Drawn.refl state.screen).draw _
  | backspace =>
      simp only [screen_releaseKey, pressBackspace, screen_oskInjectKey]
      exact (edited _ _).draw _
  | space =>
      simp only [screen_releaseKey, pressSpace, screen_oskInjectKey]
      exact (edited _ _).draw _
  | dotcom =>
      simp only [screen_releaseKey, pressDotcom]
      rw [view_foldl fun state byte => screen_oskInjectKey state _ _]
      exact (edited _ _).draw _
  | char =>
      have typed : state.screen.Drawn (state.pressChar font key).screen := by
        simp only [pressChar, screen_oskInjectKey]
        exact edited _ _
      dsimp only
      split
      · exact typed.draw _
      · exact typed.draw _

/-- The Enter key keeps the page: it is saved while the key is drawn and comes back with it. -/
theorem samePage_pressEnter (active : state.oskActive = true) :
    state.screen.SamePage (state.pressEnter font).screen := by
  unfold pressEnter
  refine Screen.SamePage.trans ?_ (samePage_hideOsk _)
  rw [screen_oskInjectKey]
  split
  · simp only [screen_typeText, screen_clearBrowserUrlBar, screen_simulateClick, screen_showUrl]
    exact Screen.SamePage.draw_active active _
  · exact .refl _

/-- Every key keeps the page while the keyboard is up. -/
theorem samePage_pressKey (key : OskKey) (active : state.oskActive = true) :
    state.screen.SamePage (state.pressKey font key).screen := by
  by_cases hide : key.action = .hide
  · simp only [pressKey, hide]
    exact samePage_hideOsk state
  · by_cases enter : key.action = .enter
    · simp only [pressKey, enter]
      exact samePage_pressEnter font active
    · exact (drawn_pressKey font key hide enter).samePage active

/-- A tap inside the keyboard keeps the page. -/
theorem samePage_handleOskTouch (x y : Int) (active : state.oskActive = true) :
    state.screen.SamePage (state.handleOskTouch font x y).screen := by
  unfold handleOskTouch
  split
  · exact .refl _
  · next key _ =>
    have drawn : state.screen.SamePage
        (state.screen.draw (drawOskKey font state.mode key true)) :=
      Screen.SamePage.draw_active active _
    exact drawn.trans (samePage_pressKey font key active)

end Keys

/-! ## Input -/

section Input

variable (state : State) (font : Font)

/-- A change of layout keeps the page. -/
theorem samePage_switchMode (mode : OskMode) :
    state.screen.SamePage (state.switchMode font mode).screen := by
  unfold switchMode
  dsimp only
  split
  · next active => exact Screen.SamePage.draw_active active _
  · exact .refl _

/-- A line from the FIFO keeps the page. -/
theorem samePage_handleFifoCommand (cmd : List UInt8) :
    state.screen.SamePage (state.handleFifoCommand font cmd).screen := by
  unfold handleFifoCommand
  rcases fifoCommand cmd with _ | command
  · exact .refl _
  · cases command with
    | inject sym unicode => exact .refl _
    | osk => exact samePage_toggleOsk state font
    | lang => exact samePage_switchMode state font _
    | shift => exact samePage_switchMode state font _
    | sym => exact samePage_switchMode state font _
    | back => exact .refl _
    | focusUrl => exact samePage_focusUrl state font
    | text payload =>
        simp only [handleText, screen_typeText]
        split
        · exact samePage_showUrl { state with url := state.url ++ payload } font
        · exact .refl _
    | url payload =>
        simp only [handleUrl, screen_oskInjectKey, screen_typeText, screen_clearBrowserUrlBar,
          screen_simulateClick]
        exact samePage_showUrl { state with url := payload.take (urlSize - 1) } font
    | click x y => exact .refl _

/-- The end of a touch frame keeps the page. -/
theorem samePage_handleFrame : state.screen.SamePage (state.handleFrame font).screen := by
  unfold handleFrame
  split
  · next active =>
    split
    · unfold touchOnOsk
      split
      · exact samePage_handleOskTouch font _ _ active
      · split <;> exact .refl _
    · unfold touchAboveOsk
      dsimp only
      split
      · split <;> exact samePage_hideOsk state
      · split
        · exact .refl _
        · rw [screen_regularTouch]
          exact .refl _
  · unfold touchPage
    split
    · exact samePage_focusUrl { state with touchDown := true } font
    · split
      · exact samePage_showOsk { state with touchDown := true } font
      · rw [screen_regularTouch]
        exact .refl _

/-- An event of the panel keeps the page. -/
theorem samePage_handleTouchEvent (ev : InputEvent) :
    state.screen.SamePage (state.handleTouchEvent font ev).screen := by
  unfold handleTouchEvent
  split
  · split
    · exact .refl _
    · split <;> exact .refl _
  · split
    · exact .refl _
    · split
      · exact samePage_handleFrame state font
      · exact .refl _

/-- An event of the key device keeps the page. -/
theorem samePage_handleKeyEvent (ev : InputEvent) :
    state.screen.SamePage (state.handleKeyEvent font ev).screen := by
  unfold handleKeyEvent
  split
  · split
    · exact .refl _
    · split
      · exact .refl _
      · split
        · split
          · exact samePage_hideOsk state
          · exact .refl _
        · split
          · exact samePage_toggleOsk state font
          · split
            · exact samePage_focusUrl state font
            · exact .refl _
  · exact .refl _

end Input

/-! ## The browser's updates -/

section Browser

variable (font : Font) (step : BrowserStep)

/-- Refreshing the page leaves the screen's contents alone. -/
@[simp] theorem screen_refreshPage (state : State) (columns rows : Span) :
    (state.refreshPage columns rows).screen = state.screen := by
  unfold refreshPage
  dsimp only
  split <;> rfl

/-- The address bar, when it is drawn, lies above the keyboard's rows. -/
theorem screen_assertUrlBar (state : State) (columns rows : Span) :
    ∃ layer : Layer UInt16, layer.Below 75 ∧
      (state.assertUrlBar font columns rows).screen = state.screen.draw layer := by
  unfold assertUrlBar
  split
  · exact ⟨_, below_drawUrlBarOverlay font state.url, screen_draw state _⟩
  · exact ⟨.blank, Layer.below_blank 75, rfl⟩

/-- A layer above row 75 leaves the keyboard's rows as they are. -/
theorem overlay_inOskRows {layer : Layer UInt16} (above : layer.Below 75)
    (frame : Frame UInt16) {row : Nat} (inside : inOskRows row = true) (column : Nat) :
    frame.overlay layer row column = frame row column := by
  have beyond : oskY ≤ row := by
    simp only [inOskRows, Bool.and_eq_true, decide_eq_true_eq] at inside
    exact inside.1
  have high : 75 ≤ oskY := by decide
  exact Frame.overlay_below above frame (by omega) column

/-- Without the keyboard an update leaves the page as the browser painted it. -/
theorem updateRect_off {state : State} (off : state.oskActive = false) (rect : Rect) :
    (state.updateRect font rect).screen.oskActive = false ∧
      ∀ row column, inOskRows row = true →
        (state.updateRect font rect).screen.frame row column = state.frame row column := by
  unfold updateRect
  split
  · exact ⟨off, fun _ _ _ => rfl⟩
  · next columns rows _ =>
    obtain ⟨layer, above, drawn⟩ := screen_assertUrlBar font state columns rows
    have drawnOff : (state.assertUrlBar font columns rows).oskActive = false :=
      (congrArg Screen.oskActive drawn).trans off
    dsimp only
    rw [if_neg (by simp [drawnOff]), screen_refreshPage, drawn]
    exact ⟨off, fun row column inside => overlay_inOskRows above state.frame inside column⟩

/-- An update that ends above the keyboard copies nothing. -/
theorem saved_of_stop_le {rows : Span} (above : rows.stop ≤ oskY) (row : Nat) :
    rows.saved row = false := by
  simp only [Span.saved, decide_eq_false_iff_not, not_and]
  intro _
  omega

/-- The refresh after the copy does not touch the pictures. -/
theorem screen_refreshAbove (state : State) (columns rows rest : Span) :
    (if rows.start ≥ oskY then state else state.refreshPage columns rest).screen =
      state.screen := by
  split
  · rfl
  · exact screen_refreshPage state columns rest

/-- With the keyboard up an update copies the rows it reaches to the backup, as
they stand in the framebuffer. -/
theorem updateRect_active {state : State} (active : state.oskActive = true) (rect : Rect) :
    (state.updateRect font rect).screen.oskActive = true ∧
      ∀ row column, inOskRows row = true →
        (state.updateRect font rect).screen.backup row column =
          if rect.saved row then state.frame row column else state.backup row column := by
  unfold updateRect Rect.saved
  split
  · exact ⟨active, fun _ _ _ => rfl⟩
  · next columns rows _ =>
    obtain ⟨layer, above, drawn⟩ := screen_assertUrlBar font state columns rows
    dsimp only
    generalize state.assertUrlBar font columns rows = bar at drawn ⊢
    have barActive : bar.oskActive = true := (congrArg Screen.oskActive drawn).trans active
    have barBackup : bar.backup = state.backup := congrArg Screen.backup drawn
    have barFrame : bar.frame = state.frame.overlay layer := congrArg Screen.frame drawn
    by_cases reaches : rows.stop > oskY
    · rw [if_pos (by simp [barActive, reaches]), screen_refreshAbove]
      refine ⟨barActive, ?_⟩
      intro row column inside
      have copied : (bar.saveUnderOsk font rows).screen.backup row column =
          if rows.saved row then bar.frame row column else bar.backup row column := rfl
      rw [copied, barBackup, barFrame, overlay_inOskRows above state.frame inside]
    · rw [if_neg (by simp [reaches]), screen_refreshPage]
      refine ⟨barActive, ?_⟩
      intro row column _
      simp only [saved_of_stop_le (Int.not_lt.mp reaches) row, Bool.false_eq_true, if_false]
      exact congrFun (congrFun barBackup row) column

end Browser

end State

/-! ## Two shims side by side -/

/-- The shim, and a second one that only ever sees the browser's steps: its
keyboard stays off. -/
structure Twin where
  state : State
  page : State

/-- The pixels of the framebuffer that the keyboard can cover. -/
def UnderOsk (row column : Nat) : Prop := State.inOskRows row = true ∧ column < panelStride

namespace Twin

/-- One step of both; the second sees the browser's steps only. -/
def step (font : Font) (twin : Twin) (label : Label) : Twin where
  state := twin.state.step font label
  page :=
    match label with
    | .browser step => twin.page.browse font step
    | _ => twin.page

/-- The two from one start, over every order of steps. -/
def machine (font : Font) (url : List UInt8) : Machine Twin Label where
  initial := ⟨.setVideoMode font url, .setVideoMode font url⟩
  step := step font

/-- With the keyboard off, its rows show what the browser alone would have left. -/
def PageIntact (twin : Twin) : Prop :=
  twin.state.oskActive = false →
    ∀ row column, UnderOsk row column → twin.state.frame row column = twin.page.frame row column

/-- The same after `hide_osk`. -/
def hidden (twin : Twin) : Twin := { twin with state := twin.state.hideOsk }

/-- The page is intact, now and when the keyboard is hidden next. -/
def RestoresPage (twin : Twin) : Prop := twin.PageIntact ∧ twin.hidden.PageIntact

/-- A browser step under the keyboard: in the rows it makes `SDL_UpdateRect` copy,
the pixels it does not paint show the page already; in the other rows of the
keyboard it paints only what is there. -/
def SavesPage (twin : Twin) : Label → Prop
  | .browser step =>
      twin.state.oskActive = true → ∀ row column, UnderOsk row column →
        if step.rect.saved row then
          step.pixels row column = none →
            twin.state.frame row column = twin.state.backup row column
        else
          ∀ colour, step.pixels row column = some colour →
            colour = twin.state.backup row column
  | _ => True

/-- What the shim keeps of the page is the page. -/
structure InStep (twin : Twin) : Prop where
  off : twin.page.oskActive = false
  same : ∀ row column, UnderOsk row column →
    twin.state.screen.underneath row column = twin.page.frame row column

namespace InStep

variable {twin : Twin}

/-- In step and with the keyboard off, the frame shows the page. -/
theorem pageIntact (inStep : twin.InStep) : twin.PageIntact := by
  intro off row column inside
  have same := inStep.same row column inside
  simpa [Screen.underneath, State.screen, off] using same

/-- Hiding the keyboard keeps the two in step. -/
theorem hidden (inStep : twin.InStep) : twin.hidden.InStep where
  off := inStep.off
  same := fun row column inside =>
    (State.samePage_hideOsk twin.state row column inside.1).trans (inStep.same row column inside)

/-- In step, the page is intact now and after the next hiding. -/
theorem restoresPage (inStep : twin.InStep) : twin.RestoresPage :=
  ⟨inStep.pageIntact, inStep.hidden.pageIntact⟩

end InStep

/-- The page comes back exactly if the shim has kept it. -/
theorem RestoresPage.same {twin : Twin} (restores : twin.RestoresPage) {row column : Nat}
    (inside : UnderOsk row column) :
    twin.state.screen.underneath row column = twin.page.frame row column := by
  have hiddenOff := State.hideOsk_oskActive twin.state
  have shown : twin.state.hideOsk.frame row column = twin.page.frame row column :=
    restores.2 hiddenOff row column inside
  have moved := State.samePage_hideOsk twin.state row column inside.1
  have off : twin.state.hideOsk.screen.underneath = twin.state.hideOsk.frame := by
    simp [Screen.underneath, State.screen, hiddenOff]
  rw [← moved, off, shown]

/-! ### One step -/

section Step

variable {twin : Twin} (font : Font)

/-- Only the browser changes the page. -/
theorem samePage_step {label : Label} (keyboard : ∀ step, label ≠ .browser step) :
    twin.state.screen.SamePage (twin.step font label).state.screen := by
  cases label with
  | touch ev => exact State.samePage_handleTouchEvent twin.state font ev
  | key ev => exact State.samePage_handleKeyEvent twin.state font ev
  | fifo cmd => exact State.samePage_handleFifoCommand twin.state font cmd
  | showKeyboard =>
      exact State.samePage_showOsk { twin.state with urlFocused := false } font
  | browser step => exact absurd rfl (keyboard step)

/-- The second shim stands still at every step but the browser's. -/
theorem page_step {label : Label} (keyboard : ∀ step, label ≠ .browser step) :
    (twin.step font label).page = twin.page := by
  cases label with
  | browser step => exact absurd rfl (keyboard step)
  | _ => rfl

/-- The second shim shows what the browser paints. -/
theorem InStep.page_browser (inStep : twin.InStep) (browser : BrowserStep) :
    (twin.step font (.browser browser)).page.oskActive = false ∧
      ∀ row column, UnderOsk row column →
        (twin.step font (.browser browser)).page.frame row column =
          twin.page.frame.overlay browser.pixels row column := by
  have painted : (twin.page.draw browser.pixels).oskActive = false := inStep.off
  obtain ⟨off, frame⟩ := State.updateRect_off font painted browser.rect
  exact ⟨off, fun row column inside => frame row column inside.1⟩

/-- With the keyboard off the two shims do the same. -/
theorem InStep.browser_off (inStep : twin.InStep) (browser : BrowserStep)
    (off : twin.state.oskActive = false) : (twin.step font (.browser browser)).InStep := by
  obtain ⟨pageOff, pageFrame⟩ := inStep.page_browser font browser
  have painted : (twin.state.draw browser.pixels).oskActive = false := off
  obtain ⟨stateOff, stateFrame⟩ := State.updateRect_off font painted browser.rect
  refine ⟨pageOff, ?_⟩
  intro row column inside
  have before : twin.state.frame row column = twin.page.frame row column :=
    inStep.pageIntact off row column inside
  calc (twin.step font (.browser browser)).state.screen.underneath row column
      = (twin.step font (.browser browser)).state.screen.frame row column := by
        unfold Screen.underneath
        rw [if_neg]
        rw [Bool.not_eq_true]
        exact stateOff
    _ = twin.state.frame.overlay browser.pixels row column := stateFrame row column inside.1
    _ = twin.page.frame.overlay browser.pixels row column := by
        simp [Frame.overlay, before]
    _ = (twin.step font (.browser browser)).page.frame row column :=
        (pageFrame row column inside).symm

/-- What a browser step leaves of the page in the backup. -/
theorem browser_underneath (browser : BrowserStep) (active : twin.state.oskActive = true)
    {row column : Nat} (inside : UnderOsk row column) :
    (twin.step font (.browser browser)).state.screen.underneath row column =
      if browser.rect.saved row then twin.state.frame.overlay browser.pixels row column
      else twin.state.backup row column := by
  have painted : (twin.state.draw browser.pixels).oskActive = true := active
  obtain ⟨up, backup⟩ := State.updateRect_active font painted browser.rect
  unfold Screen.underneath
  rw [if_pos (by exact up)]
  exact backup row column inside.1

/-- At one pixel, the copy to the backup agrees with the page exactly under the
condition. -/
theorem saved_iff {saved : Bool} {shown kept : UInt16} {painted : Option UInt16} :
    (if saved then painted.getD shown else kept) = painted.getD kept ↔
      if saved then painted = none → shown = kept
      else ∀ colour, painted = some colour → colour = kept := by
  cases saved with
  | true =>
      cases painted with
      | none => simp
      | some colour => simp
  | false =>
      cases painted with
      | none => simp
      | some colour => simp [eq_comm]

/-- A browser step under the keyboard keeps a pixel exactly when it copies or paints the page
there. -/
theorem InStep.browser_active_iff (inStep : twin.InStep) (browser : BrowserStep)
    (active : twin.state.oskActive = true) {row column : Nat} (inside : UnderOsk row column) :
    (twin.step font (.browser browser)).state.screen.underneath row column =
        (twin.step font (.browser browser)).page.frame row column ↔
      if browser.rect.saved row then
        browser.pixels row column = none →
          twin.state.frame row column = twin.state.backup row column
      else
        ∀ colour, browser.pixels row column = some colour →
          colour = twin.state.backup row column := by
  have before : twin.state.backup row column = twin.page.frame row column := by
    simpa [Screen.underneath, State.screen, active] using inStep.same row column inside
  rw [browser_underneath font browser active inside,
    (inStep.page_browser font browser).2 row column inside]
  unfold Frame.overlay
  rw [← before]
  exact saved_iff

/-- Every step that saves the page keeps the two in step. -/
theorem InStep.step (inStep : twin.InStep) (label : Label) (saves : twin.SavesPage label) :
    (twin.step font label).InStep := by
  by_cases keyboard : ∀ step, label ≠ .browser step
  · have page : (twin.step font label).page = twin.page := page_step font keyboard
    refine ⟨by rw [page]; exact inStep.off, ?_⟩
    intro row column inside
    rw [page, ← inStep.same row column inside]
    exact samePage_step font keyboard row column inside.1
  · simp only [ne_eq, not_forall, not_not] at keyboard
    obtain ⟨browser, rfl⟩ := keyboard
    cases active : twin.state.oskActive with
    | false => exact inStep.browser_off font browser active
    | true =>
        refine ⟨(inStep.page_browser font browser).1, ?_⟩
        intro row column inside
        rw [inStep.browser_active_iff font browser active inside]
        exact saves active row column inside

/-- A pixel that is copied wrongly comes back wrong when the keyboard is hidden. -/
theorem InStep.broken (inStep : twin.InStep) (label : Label) (missed : ¬ twin.SavesPage label) :
    ¬ (twin.step font label).RestoresPage := by
  intro restores
  cases label with
  | browser browser =>
      apply missed
      intro active row column inside
      rw [← inStep.browser_active_iff font browser active inside]
      exact restores.same inside
  | _ => exact missed trivial

end Step

end Twin

/-- The keyboard leaves no trace on the page along exactly those schedules on which
every browser step under the keyboard covers the rows it updates with its own pixels
wherever they do not show the page anyway. -/
theorem oskBackup_exact (font : Font) (url : List UInt8) (labels : List Label) :
    (Twin.machine font url).Always Twin.RestoresPage (Twin.machine font url).initial labels ↔
      (Twin.machine font url).StepsMeet Twin.SavesPage (Twin.machine font url).initial
        labels := by
  have start : (Twin.machine font url).initial.InStep := ⟨rfl, fun _ _ _ => rfl⟩
  refine Machine.always_iff_stepsMeet_of_all Twin.InStep ?_ ?_ ?_ start labels
  · intro twin inStep
    exact inStep.restoresPage
  · intro twin label inStep saves
    exact inStep.step font label saves
  · intro twin label inStep missed
    exact inStep.broken font label missed

/-- A browser step that fills a rectangle with one colour. -/
def BrowserStep.fill (rect : Rect) (colour : UInt16) : BrowserStep where
  rect := rect
  pixels := fun row column => if rect.contains row column then some colour else none
  inside := by
    intro row column outside
    simp [outside]

/-- One pixel updated at the bottom of the panel while the keyboard is up: when the
keyboard goes, the rest of that row keeps its colour. -/
theorem oskBackup_one_pixel :
    ¬ ((Twin.machine ⟨fun _ _ => 0, fun _ _ => 0⟩ (ascii "https://lite.duckduckgo.com")).run
        (Twin.machine ⟨fun _ _ => 0, fun _ _ => 0⟩ (ascii "https://lite.duckduckgo.com")).initial
        [.showKeyboard, .browser (.fill ⟨0, 1850, 1, 1⟩ 0),
          .fifo (ascii "KEY:osk")]).PageIntact := by
  intro intact
  have shown := intact (by decide) 1850 5 ⟨by decide, by decide⟩
  exact absurd shown (by decide +kernel)

end Nookobo.Shim
