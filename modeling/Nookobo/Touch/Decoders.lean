import Nookobo.Plato.Model
import Nookobo.Shim.Input
import Nookobo.Switcher.Model

/-!
# Three decoders of one touch panel

The touch panel is read by the Plato shim, by the SDL shim of the browser and by the app
switcher, each with a decoder of its own. The driver gives positions as ABS_MT_POSITION_X and
ABS_MT_POSITION_Y or, depending on the kernel, as ABS_X and ABS_Y. Two of the decoders take
both forms; the Plato shim knows only the first.

`Finger` is what a decoder holds when a frame ends. Each decoder keeps the newest value of
what it listens to, so `decoders_agree_iff` can say on which streams the three agree: those
on which, whenever a frame ends, the newest position of either form is the newest one of the
first form.
-/

namespace Nookobo.Touch

open Nookobo.Shim Nookobo.Text

/-! ## What a decoder holds -/

/-- Contact and raw position. -/
structure Finger where
  down : Bool
  x : Int
  y : Int
deriving DecidableEq, Repr

/-- A raw event, with what the music player would report if the app switcher asked it then. -/
structure Arrival where
  raw : Plato.InputEvent
  music : List (List UInt8) := []
deriving DecidableEq, Repr

/-- The finger as Plato's shim decodes it. -/
def platoFinger (state : Plato.State) : Finger where
  down := state.newDown
  x := state.lastX.toInt
  y := state.lastY.toInt

/-- The finger as NetSurf's shim decodes it. -/
def netsurfFinger (state : Shim.State) : Finger where
  down := state.curDown
  x := state.curX
  y := state.curY

/-- The finger as the app switcher decodes it. -/
def switcherFinger (state : Switcher.State) : Finger where
  down := state.isContactDown
  x := state.lastRawX.toInt
  y := state.lastRawY.toInt

/-- The three programs. -/
structure Decoders where
  plato : Plato.State
  netsurf : Shim.State
  switcher : Switcher.State

namespace Decoders

/-- All three get the event. -/
def feed (font : Font) (decoders : Decoders) (arrival : Arrival) : Decoders where
  plato := decoders.plato.handleRaw arrival.raw
  netsurf :=
    decoders.netsurf.handleTouchEvent font
      ⟨arrival.raw.type, arrival.raw.code, arrival.raw.value⟩
  switcher :=
    decoders.switcher.handleEvent font ⟨arrival.raw.type, arrival.raw.code, arrival.raw.value⟩
      arrival.music

/-- All three after the same events. -/
def after (font : Font) (decoders : Decoders) (stream : List Arrival) : Decoders :=
  stream.foldl (feed font) decoders

/-- They see the same finger in the same place. -/
def Agree (decoders : Decoders) : Prop :=
  platoFinger decoders.plato = netsurfFinger decoders.netsurf ∧
    netsurfFinger decoders.netsurf = switcherFinger decoders.switcher

instance (decoders : Decoders) : Decidable decoders.Agree := inferInstanceAs (Decidable (_ ∧ _))

/-- No event has been read yet. -/
structure Fresh (decoders : Decoders) : Prop where
  plato : platoFinger decoders.plato = ⟨false, 0, 0⟩
  netsurf : netsurfFinger decoders.netsurf = ⟨false, 0, 0⟩
  switcher : switcherFinger decoders.switcher = ⟨false, -1, -1⟩

end Decoders

/-! ## What an event says -/

/-- `SYN_REPORT`. -/
def isReport (arrival : Arrival) : Bool := arrival.raw.type == 0 && arrival.raw.code == 0

/-- The value of an axis, if the event gives it. -/
def axis (code : UInt16) (arrival : Arrival) : Option Int :=
  if arrival.raw.type = 3 ∧ arrival.raw.code = code then some arrival.raw.value.toInt else none

/-- `ABS_MT_POSITION_X` and `ABS_MT_POSITION_Y`. -/
def mtX (arrival : Arrival) : Option Int := axis 0x35 arrival
def mtY (arrival : Arrival) : Option Int := axis 0x36 arrival

/-- A position in either form. -/
def anyX (arrival : Arrival) : Option Int := (mtX arrival).or (axis 0 arrival)
def anyY (arrival : Arrival) : Option Int := (mtY arrival).or (axis 1 arrival)

/-- `BTN_TOUCH`. -/
def touch (arrival : Arrival) : Option Bool :=
  if arrival.raw.type = 1 ∧ arrival.raw.code = 0x14a then some (arrival.raw.value != 0) else none

/-- `ABS_MT_TRACKING_ID` as a word on the contact. -/
def tracking (arrival : Arrival) : Option Bool :=
  if arrival.raw.type = 3 ∧ arrival.raw.code = 0x39 then
    if arrival.raw.value = -1 then some false
    else if 0 ≤ arrival.raw.value then some true
    else none
  else none

/-- The contact by either of these. -/
def anyTouch (arrival : Arrival) : Option Bool := (touch arrival).or (tracking arrival)

/-- The newest value in a stream. -/
def newest {α : Type} (value : Arrival → Option α) (stream : List Arrival) : Option α :=
  (stream.filterMap value).getLast?

/-- The first event of a stream counts when no later one says anything. -/
theorem newest_cons {α : Type} (value : Arrival → Option α) (first : Arrival)
    (rest : List Arrival) :
    newest value (first :: rest) = (newest value rest).or (value first) := by
  unfold newest
  cases said : value first with
  | none => rw [List.filterMap_cons_none said, Option.or_none]
  | some old =>
      rw [List.filterMap_cons_some said, List.getLast?_cons]
      cases (rest.filterMap value).getLast? <;> rfl

/-- What a finger is after a stream of which a decoder takes these words. -/
def Finger.follow (down : Arrival → Option Bool) (x y : Arrival → Option Int) (finger : Finger)
    (stream : List Arrival) : Finger where
  down := (newest down stream).getD finger.down
  x := (newest x stream).getD finger.x
  y := (newest y stream).getD finger.y

/-- A decoder that takes one word at a time holds the newest ones. -/
theorem follow_foldl {σ : Type} {step : σ → Arrival → σ} (view : σ → Finger)
    {down : Arrival → Option Bool} {x y : Arrival → Option Int}
    (takes : ∀ state arrival, view (step state arrival) =
      ⟨(down arrival).getD (view state).down, (x arrival).getD (view state).x,
        (y arrival).getD (view state).y⟩)
    (state : σ) (stream : List Arrival) :
    view (stream.foldl step state) = (view state).follow down x y stream := by
  induction stream generalizing state with
  | nil => rfl
  | cons first rest ih =>
      rw [List.foldl_cons, ih, takes]
      simp only [Finger.follow, newest_cons, Option.getD_or]

/-! ## The decoders, word by word -/

/-- The event by kind: what it says to each of the decoders. -/
theorem said_of_abs {arrival : Arrival} (abs : arrival.raw.type = 3) :
    touch arrival = none ∧ ∀ code, axis code arrival =
      if arrival.raw.code = code then some arrival.raw.value.toInt else none := by
  refine ⟨?_, fun code => ?_⟩
  · simp [touch, abs]
  · simp [axis, abs]

/-- An event of another type says nothing of contact or position. -/
theorem said_of_other {arrival : Arrival} (other : arrival.raw.type ≠ 3) :
    tracking arrival = none ∧ ∀ code, axis code arrival = none := by
  refine ⟨?_, fun code => ?_⟩
  · simp [tracking, other]
  · simp [axis, other]

/-! ### Plato -/

/-- A report passes the finger on and keeps it. -/
theorem platoFinger_handleReport (raw : Plato.InputEvent) (state : Plato.State) :
    platoFinger (state.handleReport raw) = platoFinger state := by
  unfold Plato.State.handleReport
  split_ifs <;> rfl

/-- Plato takes the contact from `BTN_TOUCH` and the position in multi-touch form only. -/
theorem platoFinger_handleRaw (state : Plato.State) (arrival : Arrival) :
    platoFinger (state.handleRaw arrival.raw) =
      ⟨(touch arrival).getD (platoFinger state).down, (mtX arrival).getD (platoFinger state).x,
        (mtY arrival).getD (platoFinger state).y⟩ := by
  unfold Plato.State.handleRaw
  split
  · next abs =>
      obtain ⟨quiet, gives⟩ := said_of_abs abs
      rw [quiet, mtX, mtY, gives, gives]
      simp only [Plato.State.handleAbs, Plato.absMtTrackingId, Plato.absMtPositionX,
        Plato.absMtPositionY]
      by_cases tracks : arrival.raw.code = 0x39
      · simp only [tracks, if_true]
        split <;> rfl
      · by_cases across : arrival.raw.code = 0x35
        · simp only [across, if_true]
          rfl
        · by_cases down : arrival.raw.code = 0x36
          · simp only [down, if_true]
            rfl
          · simp only [tracks, across, down, if_false]
            rfl
  · next notAbs =>
      obtain ⟨-, gives⟩ := said_of_other notAbs
      rw [mtX, mtY, gives, gives]
      split
      · next key =>
          split
          · next button =>
              rw [touch, if_pos ⟨key, button⟩]
              rfl
          · next other =>
              rw [touch, if_neg fun both => other both.2]
              rfl
      · next notKey =>
          have untouched : touch arrival = none := if_neg fun both => notKey both.1
          rw [untouched]
          split
          · exact platoFinger_handleReport arrival.raw state
          · rfl

/-! ### The app switcher -/

/-- A button's action keeps the switcher's finger. -/
theorem switcherFinger_act (font : Font) (report : List (List UInt8)) (id : Switcher.ButtonId)
    (state : Switcher.State) :
    switcherFinger (state.act font report id) = switcherFinger state := by
  cases id <;> rfl

/-- Taking the highlight away keeps the switcher's finger. -/
theorem switcherFinger_unhighlight (font : Font) (state : Switcher.State) :
    switcherFinger (state.unhighlight font) = switcherFinger state := by
  unfold Switcher.State.unhighlight
  split <;> rfl

/-- A press keeps the switcher's finger. -/
theorem switcherFinger_handlePress (font : Font) (state : Switcher.State) :
    switcherFinger (state.handlePress font) = switcherFinger state := by
  simp only [Switcher.State.handlePress]
  split
  · split <;> rfl
  · rfl

/-- A release keeps the switcher's finger. -/
theorem switcherFinger_handleRelease (font : Font) (report : List (List UInt8))
    (state : Switcher.State) :
    switcherFinger (state.handleRelease font report) = switcherFinger state := by
  have drawn := switcherFinger_unhighlight font { state with wasContactDown := false }
  simp only [Switcher.State.handleRelease]
  generalize Switcher.State.unhighlight font { state with wasContactDown := false } = shown
    at drawn ⊢
  split
  · split
    · exact drawn
    · split
      · next id _ =>
          have acted := switcherFinger_act font report id shown
          split <;> exact acted.trans drawn
      · split <;> exact drawn
  · rfl

/-- The end of a frame keeps the switcher's finger. -/
theorem switcherFinger_handleFrame (font : Font) (report : List (List UInt8))
    (state : Switcher.State) :
    switcherFinger (state.handleFrame font report) = switcherFinger state := by
  unfold Switcher.State.handleFrame
  split
  · exact switcherFinger_handlePress font state
  · split
    · exact switcherFinger_handleRelease font report state
    · rfl

/-- The switcher takes the contact from either word on it and the position in either form. -/
theorem switcherFinger_handleEvent (font : Font) (state : Switcher.State) (arrival : Arrival) :
    switcherFinger (state.handleEvent font ⟨arrival.raw.type, arrival.raw.code, arrival.raw.value⟩
        arrival.music) =
      ⟨(anyTouch arrival).getD (switcherFinger state).down,
        (anyX arrival).getD (switcherFinger state).x,
        (anyY arrival).getD (switcherFinger state).y⟩ := by
  simp only [Switcher.State.handleEvent]
  split
  · next abs =>
      obtain ⟨quiet, gives⟩ := said_of_abs abs
      simp only [anyTouch, anyX, anyY, mtX, mtY, quiet, gives, Option.none_or, tracking, abs,
        true_and]
      by_cases across : arrival.raw.code = 0x35 ∨ arrival.raw.code = 0
      · rw [if_pos across]
        rcases across with code | code <;> rw [code] <;> rfl
      · rw [if_neg across]
        obtain ⟨notMt, notAbs⟩ := not_or.mp across
        by_cases down : arrival.raw.code = 0x36 ∨ arrival.raw.code = 1
        · rw [if_pos down]
          rcases down with code | code <;> rw [code] <;> rfl
        · rw [if_neg down]
          obtain ⟨notMtY, notAbsY⟩ := not_or.mp down
          simp only [notMt, notAbs, notMtY, notAbsY, if_false, Option.none_or, Option.getD_none]
          split
          · split
            · rfl
            · split <;> rfl
          · rfl
  · next notAbs =>
      obtain ⟨quiet, gives⟩ := said_of_other notAbs
      simp only [anyTouch, anyX, anyY, mtX, mtY, quiet, gives, Option.or_none, touch]
      split
      · rfl
      · split
        · exact switcherFinger_handleFrame font arrival.music state
        · rfl

/-! ### The browser

Whatever a frame leads to, keys on the screen and clicks included, the worker's own variables
stay as they are. -/

section Netsurf

variable (state : Shim.State) (font : Font)

/-- Showing the keyboard keeps NetSurf's finger. -/
@[simp] theorem netsurfFinger_showOsk :
    netsurfFinger (state.showOsk font) = netsurfFinger state := by
  unfold State.showOsk
  split <;> rfl

/-- Hiding the keyboard keeps NetSurf's finger. -/
@[simp] theorem netsurfFinger_hideOsk : netsurfFinger state.hideOsk = netsurfFinger state := by
  unfold State.hideOsk
  split <;> rfl

/-- Editing the address keeps NetSurf's finger. -/
theorem netsurfFinger_editUrl (url : List UInt8) :
    netsurfFinger (state.editUrl font url) = netsurfFinger state := by
  have shown : ∀ (state : Shim.State) (layer : Semantics.Layer UInt16) (mode : Refresh)
      (x y w h : Int),
      netsurfFinger ((state.draw layer).refresh mode x y w h) = netsurfFinger state :=
    fun _ _ _ _ _ _ _ => rfl
  rw [State.editUrl, State.showUrl, State.showPreview, shown, shown]
  rfl

/-- A key for the page keeps NetSurf's finger. -/
theorem netsurfFinger_oskInjectKey (sym unicode : Nat) :
    netsurfFinger (state.oskInjectKey sym unicode) = netsurfFinger state := rfl

/-- Emptying the browser's address bar keeps NetSurf's finger. -/
@[simp] theorem netsurfFinger_clearBrowserUrlBar :
    netsurfFinger state.clearBrowserUrlBar = netsurfFinger state :=
  State.view_clearBrowserUrlBar netsurfFinger_oskInjectKey (fun _ _ _ => rfl) state

/-- Typing into the browser keeps NetSurf's finger. -/
@[simp] theorem netsurfFinger_typeText (text : List UInt8) :
    netsurfFinger (state.typeText text) = netsurfFinger state :=
  State.view_typeText netsurfFinger_oskInjectKey text state

/-- The Clear key keeps NetSurf's finger. -/
theorem netsurfFinger_pressClear :
    netsurfFinger (state.pressClear font) = netsurfFinger state := by
  unfold State.pressClear
  split
  · rw [netsurfFinger_clearBrowserUrlBar]
    rfl
  · exact State.view_repeatKey netsurfFinger_oskInjectKey 50 sdlkBackspace 8 _

/-- The Enter key keeps NetSurf's finger. -/
theorem netsurfFinger_pressEnter :
    netsurfFinger (state.pressEnter font) = netsurfFinger state := by
  simp only [State.pressEnter, netsurfFinger_hideOsk]
  split
  · exact (netsurfFinger_typeText _ _).trans (netsurfFinger_clearBrowserUrlBar _)
  · rfl

/-- The `.com` key keeps NetSurf's finger. -/
theorem netsurfFinger_pressDotcom :
    netsurfFinger (state.pressDotcom font) = netsurfFinger state := by
  have typed : ∀ (text : List UInt8) (state : Shim.State),
      netsurfFinger (text.foldl (fun state byte => state.oskInjectKey byte.toNat byte.toNat)
        state) = netsurfFinger state :=
    State.view_foldl fun state byte => netsurfFinger_oskInjectKey state _ _
  simp only [State.pressDotcom, typed]
  split
  · exact netsurfFinger_editUrl state font _
  · rfl

/-- A letter key keeps NetSurf's finger. -/
theorem netsurfFinger_pressChar (key : OskKey) :
    netsurfFinger (state.pressChar font key) = netsurfFinger state := by
  simp only [State.pressChar, netsurfFinger_oskInjectKey]
  split
  · exact netsurfFinger_editUrl state font _
  · rfl

/-- The Backspace key keeps NetSurf's finger. -/
theorem netsurfFinger_pressBackspace :
    netsurfFinger (state.pressBackspace font) = netsurfFinger state := by
  simp only [State.pressBackspace, netsurfFinger_oskInjectKey]
  split
  · exact netsurfFinger_editUrl state font _
  · rfl

/-- The Space key keeps NetSurf's finger. -/
theorem netsurfFinger_pressSpace :
    netsurfFinger (state.pressSpace font) = netsurfFinger state := by
  simp only [State.pressSpace, netsurfFinger_oskInjectKey]
  split
  · exact netsurfFinger_editUrl state font _
  · rfl

/-- Every key keeps NetSurf's finger. -/
theorem netsurfFinger_pressKey (key : OskKey) :
    netsurfFinger (state.pressKey font key) = netsurfFinger state := by
  unfold State.pressKey
  cases key.action with
  | hide => exact netsurfFinger_hideOsk state
  | clear => exact netsurfFinger_pressClear state font
  | shift | symbols | lang => rfl
  | backspace => exact netsurfFinger_pressBackspace state font
  | space => exact netsurfFinger_pressSpace state font
  | enter => exact netsurfFinger_pressEnter state font
  | dotcom => exact netsurfFinger_pressDotcom state font
  | char =>
      dsimp only
      split
      · exact netsurfFinger_pressChar state font key
      · exact netsurfFinger_pressChar state font key

/-- A tap inside the keyboard keeps NetSurf's finger. -/
theorem netsurfFinger_handleOskTouch (x y : Int) :
    netsurfFinger (state.handleOskTouch font x y) = netsurfFinger state := by
  unfold State.handleOskTouch
  split
  · rfl
  · exact netsurfFinger_pressKey _ font _

/-- A touch on the page keeps NetSurf's finger. -/
theorem netsurfFinger_regularTouch :
    netsurfFinger state.regularTouch = netsurfFinger state := by
  simp only [State.regularTouch]
  split_ifs <;> rfl

/-- A touch on the keyboard keeps NetSurf's finger. -/
theorem netsurfFinger_touchOnOsk :
    netsurfFinger (state.touchOnOsk font) = netsurfFinger state := by
  unfold State.touchOnOsk
  split
  · exact netsurfFinger_handleOskTouch _ font _ _
  · split <;> rfl

/-- A touch above the keyboard keeps NetSurf's finger. -/
theorem netsurfFinger_touchAboveOsk : netsurfFinger state.touchAboveOsk = netsurfFinger state := by
  simp only [State.touchAboveOsk]
  have hidden := netsurfFinger_hideOsk state
  split
  · split <;> exact hidden
  · split
    · rfl
    · exact netsurfFinger_regularTouch state

/-- A touch of the page, bar and corner included, keeps NetSurf's finger. -/
theorem netsurfFinger_touchPage : netsurfFinger (state.touchPage font) = netsurfFinger state := by
  unfold State.touchPage
  split
  · exact netsurfFinger_showOsk _ font
  · split
    · exact netsurfFinger_showOsk _ font
    · exact netsurfFinger_regularTouch state

/-- The end of a frame keeps NetSurf's finger. -/
theorem netsurfFinger_handleFrame :
    netsurfFinger (state.handleFrame font) = netsurfFinger state := by
  unfold State.handleFrame
  split
  · split
    · exact netsurfFinger_touchOnOsk state font
    · exact netsurfFinger_touchAboveOsk state
  · exact netsurfFinger_touchPage state font

/-- NetSurf takes the contact from `BTN_TOUCH` and the position in either form. -/
theorem netsurfFinger_handleTouchEvent (arrival : Arrival) :
    netsurfFinger (state.handleTouchEvent font
        ⟨arrival.raw.type, arrival.raw.code, arrival.raw.value⟩) =
      ⟨(touch arrival).getD (netsurfFinger state).down,
        (anyX arrival).getD (netsurfFinger state).x,
        (anyY arrival).getD (netsurfFinger state).y⟩ := by
  simp only [State.handleTouchEvent]
  split
  · next abs =>
      obtain ⟨quiet, gives⟩ := said_of_abs abs
      simp only [anyX, anyY, mtX, mtY, quiet, gives]
      by_cases across : arrival.raw.code = 0x35 ∨ arrival.raw.code = 0
      · rw [if_pos across]
        rcases across with code | code <;> rw [code] <;> rfl
      · rw [if_neg across]
        obtain ⟨notMt, notAbs⟩ := not_or.mp across
        by_cases down : arrival.raw.code = 0x36 ∨ arrival.raw.code = 1
        · rw [if_pos down]
          rcases down with code | code <;> rw [code] <;> rfl
        · rw [if_neg down]
          obtain ⟨notMtY, notAbsY⟩ := not_or.mp down
          simp only [notMt, notAbs, notMtY, notAbsY, if_false, Option.none_or, Option.getD_none]
  · next notAbs =>
      obtain ⟨-, gives⟩ := said_of_other notAbs
      simp only [anyX, anyY, mtX, mtY, gives, Option.or_none, touch]
      split
      · rfl
      · split
        · exact netsurfFinger_handleFrame state font
        · rfl

end Netsurf

/-! ## Agreement -/

namespace Decoders

variable (font : Font)

/-- Over a stream Plato follows its own words. -/
theorem plato_after (decoders : Decoders) (stream : List Arrival) :
    platoFinger (decoders.after font stream).plato =
      (platoFinger decoders.plato).follow touch mtX mtY stream :=
  follow_foldl (fun decoders => platoFinger decoders.plato)
    (fun decoders arrival => platoFinger_handleRaw decoders.plato arrival) decoders stream

/-- Over a stream NetSurf follows its own words. -/
theorem netsurf_after (decoders : Decoders) (stream : List Arrival) :
    netsurfFinger (decoders.after font stream).netsurf =
      (netsurfFinger decoders.netsurf).follow touch anyX anyY stream :=
  follow_foldl (fun decoders => netsurfFinger decoders.netsurf)
    (fun decoders arrival => netsurfFinger_handleTouchEvent decoders.netsurf font arrival)
    decoders stream

/-- Over a stream the switcher follows its own words. -/
theorem switcher_after (decoders : Decoders) (stream : List Arrival) :
    switcherFinger (decoders.after font stream).switcher =
      (switcherFinger decoders.switcher).follow anyTouch anyX anyY stream :=
  follow_foldl (fun decoders => switcherFinger decoders.switcher)
    (fun decoders arrival => switcherFinger_handleEvent font decoders.switcher arrival)
    decoders stream

end Decoders

/-- Both axes have been reported, in whichever form. -/
def Located (stream : List Arrival) : Prop :=
  (newest anyX stream).isSome = true ∧ (newest anyY stream).isSome = true

/-- The newest position on each axis is the newest that came as ABS_MT_POSITION, zero standing
for one that never came so, and what tracking ids say about the contact is what BTN_TOUCH
says. -/
def MultiTouch (stream : List Arrival) : Prop :=
  ((newest mtX stream).getD 0 = (newest anyX stream).getD 0 ∧
    (newest mtY stream).getD 0 = (newest anyY stream).getD 0) ∧
  (newest anyTouch stream).getD false = (newest touch stream).getD false

instance (stream : List Arrival) : Decidable (Located stream) := inferInstanceAs (Decidable (_ ∧ _))

instance (stream : List Arrival) : Decidable (MultiTouch stream) :=
  inferInstanceAs (Decidable (_ ∧ _))

/-- The property holds of what precedes every report that follows a position on each axis. -/
def AtReports (property : List Arrival → Prop) (stream : List Arrival) : Prop :=
  ∀ before arrival rest, stream = before ++ arrival :: rest → isReport arrival = true →
    Located before → property before

/-- A position that has been reported is independent of where the decoder started. -/
theorem getD_of_isSome {α : Type} {value : Option α} (given : value.isSome = true)
    (first second : α) : value.getD first = value.getD second := by
  cases value with
  | none => cases given
  | some _ => rfl

/-- At one report the three agree exactly if the stream before it is plain. -/
theorem agree_iff (font : Font) {decoders : Decoders} (fresh : decoders.Fresh)
    {stream : List Arrival} (located : Located stream) :
    (decoders.after font stream).Agree ↔ MultiTouch stream := by
  obtain ⟨across, down⟩ := located
  unfold Decoders.Agree MultiTouch
  rw [Decoders.plato_after, Decoders.netsurf_after, Decoders.switcher_after, fresh.plato,
    fresh.netsurf, fresh.switcher]
  simp only [Finger.follow, Finger.mk.injEq, true_and, getD_of_isSome across 0 (-1),
    getD_of_isSome down 0 (-1), and_true]
  constructor
  · rintro ⟨same, contact⟩
    exact ⟨same, contact.symm⟩
  · rintro ⟨same, contact⟩
    exact ⟨same, contact.symm⟩

/-- Over every stream: the three decoders agree at every report exactly if at every report the
newest positions came as ABS_MT_POSITION_X and ABS_MT_POSITION_Y. -/
theorem decoders_agree_iff (font : Font) (decoders : Decoders) (fresh : decoders.Fresh)
    (stream : List Arrival) :
    AtReports (fun before => (decoders.after font before).Agree) stream ↔
      AtReports MultiTouch stream := by
  constructor
  · intro agree before arrival rest split reports located
    exact (agree_iff font fresh located).mp (agree before arrival rest split reports located)
  · intro plain before arrival rest split reports located
    exact (agree_iff font fresh located).mpr (plain before arrival rest split reports located)

/-- The three programs when they have opened the device. -/
def opened : Decoders where
  plato := { queue := { slots := fun _ => ⟨0, 0, 0, 0, 0⟩, head := 0, tail := 0 } }
  netsurf := {}
  switcher :=
    { activeApp := [], files := { currentApp := none, activeReader := none }
      frame := fun _ _ => 0, backup := none }

/-- A finger at (500, 700) as the digitizer of the documentation reports it. -/
def legacyTap : List Arrival :=
  [{ raw := ⟨0, 0, 3, 0, 500⟩ }, { raw := ⟨0, 0, 3, 1, 700⟩ }, { raw := ⟨0, 0, 1, 0x14a, 1⟩ },
    { raw := ⟨0, 0, 0, 0, 0⟩ }]

/-- A tap in the older form: the three do not agree, and the stream is not multi-touch. -/
theorem decoders_agree_iff_legacyTap :
    AtReports (fun before => (opened.after ⟨fun _ _ => 0, fun _ _ => 0⟩ before).Agree) legacyTap ↔
      AtReports MultiTouch legacyTap :=
  decoders_agree_iff ⟨fun _ _ => 0, fun _ _ => 0⟩ opened ⟨rfl, rfl, rfl⟩ legacyTap

/-- The Plato shim sees it in the corner. -/
theorem decoders_differ_on_legacyTap :
    ¬ AtReports (fun before => (opened.after ⟨fun _ _ => 0, fun _ _ => 0⟩ before).Agree)
      legacyTap := by
  intro agree
  have there := agree (legacyTap.take 3) ⟨⟨0, 0, 0, 0, 0⟩, []⟩ [] rfl rfl (by decide)
  exact absurd there (by decide)

end Nookobo.Touch
