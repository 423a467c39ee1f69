import Mathlib.Data.List.Pairwise
import Nookobo.Semantics.Run
import Nookobo.Shim.PageTyping

/-!
# What the keyboard shows is what it types

Beside the framebuffer a `Painted` shim keeps, for every pixel, the label of the key that was last
painted there. The labels are read off the same calls as the pixels, so that they are what a user
sees written on the keys.

The mode in which the whole keyboard was last painted is followed along the calls (`painted`). It
is the current mode whenever the keyboard is up, and every key drawn on its own is drawn in it
(`Follows`); with the tables of the layouts this makes every character key type the code point of
its label.
-/

namespace Nookobo.Shim

open Nookobo.Semantics Nookobo.Text

/-- A label, where a key is painted. -/
abbrev Label? := Option (List UInt8)

/-- A rectangle with the same value everywhere. -/
def area {α : Type} (x y w h : Int) (value : α) : Layer α := fun row column =>
  if inRect x y w h row column then some value else none

/-- The area of a key and its label. -/
def OskKey.labelArea (mode : OskMode) (key : OskKey) : Layer Label? :=
  area key.x key.y key.w key.h (some (key.label mode))

namespace ScreenCall

/-- The labels a call paints, and those it paints over. -/
def labels : ScreenCall → Layer Label?
  | .urlBar => area 145 6 1175 58 none
  | .preview _ _ => area 202 1275 1000 46 none
  | .osk mode _ =>
      .stack ([area 0 oskY oskW oskH none, area 202 1275 1000 46 none] ++
        (buildOskLayout mode.lang).map (OskKey.labelArea mode))
  | .oskKey mode key _ => key.labelArea mode
  | .restore _ => fun row _ => if State.inOskRows row then some none else none
  | _ => .blank

/-- The mode in which the keyboard stands painted, if it does. -/
def painted (current : Option OskMode) : ScreenCall → Option OskMode
  | .osk mode _ => some mode
  | .restore _ => none
  | _ => current

/-- A key is drawn on its own only in the mode of the keyboard. -/
def FitsOn (current : Option OskMode) : ScreenCall → Prop
  | .oskKey mode key _ => current = some mode ∧ key ∈ buildOskLayout mode.lang
  | _ => True

/-- Every call of a list fits on what the calls before it have painted. -/
def Consistent : Option OskMode → List ScreenCall → Prop
  | _, [] => True
  | current, call :: rest => call.FitsOn current ∧ Consistent (call.painted current) rest

end ScreenCall

/-! ## The layouts -/

/-- The two keys have no point in common. -/
def OskKey.Apart (first second : OskKey) : Prop :=
  first.x + first.w ≤ second.x ∨ second.x + second.w ≤ first.x ∨
    first.y + first.h ≤ second.y ∨ second.y + second.h ≤ first.y

instance (first second : OskKey) : Decidable (first.Apart second) :=
  inferInstanceAs (Decidable (_ ∨ _))

/-- The key lies in the rows of the keyboard and beside the preview. -/
def OskKey.Placed (key : OskKey) : Prop :=
  (0 ≤ key.x ∧ key.x + key.w ≤ panelWidth ∧ oskY ≤ key.y ∧ key.y + key.h ≤ panelHeight) ∧
    (1321 ≤ key.y ∨ key.x + key.w ≤ 202 ∨ 1202 ≤ key.x)

instance (key : OskKey) : Decidable key.Placed := inferInstanceAs (Decidable (_ ∧ _))

/-- Two keys apart are apart the other way round. -/
theorem OskKey.Apart.symm {first second : OskKey} (apart : first.Apart second) :
    second.Apart first := by
  unfold Apart at apart ⊢
  omega

/-- No two keys of a layout overlap. -/
theorem layout_pairwise (lang : Language) : (buildOskLayout lang).Pairwise OskKey.Apart := by
  cases lang with
  | english => decide +kernel
  | russian => decide +kernel

/-- Two keys of a layout are the same or apart. -/
theorem layout_apart {lang : Language} {first second : OskKey}
    (inFirst : first ∈ buildOskLayout lang) (inSecond : second ∈ buildOskLayout lang) :
    first = second ∨ first.Apart second := by
  by_cases same : first = second
  · exact .inl same
  · have symmetric : Std.Symm OskKey.Apart := ⟨fun _ _ apart => apart.symm⟩
    exact .inr ((layout_pairwise lang).forall inFirst inSecond same)

/-- Every key of a layout lies in the keyboard's rows and beside the preview. -/
theorem layout_placed (lang : Language) : ∀ key ∈ buildOskLayout lang, key.Placed := by
  cases lang with
  | english => decide +kernel
  | russian => decide +kernel

/-- In every mode a character key sends the one code point of its label. -/
theorem layout_types (mode : OskMode) : ∀ key ∈ buildOskLayout mode.lang, key.action = .char →
    codePoints (key.label mode) = [key.unicode mode] ∧ key.unicode mode < 0x10000 := by
  obtain ⟨lang, shift, symbols⟩ := mode
  cases lang with
  | english => revert shift symbols; decide +kernel
  | russian => revert shift symbols; decide +kernel

/-! ## What is painted -/

section Area

variable {α : Type} {x y w h : Int} {row column : Nat}

/-- Inside its rectangle an area has its value. -/
theorem area_of_inside (value : α) (inside : inRect x y w h row column = true) :
    area x y w h value row column = some value :=
  if_pos inside

/-- Outside its rectangle an area leaves the frame alone. -/
theorem area_of_outside (value : α) (outside : ¬ inRect x y w h row column = true) :
    area x y w h value row column = none :=
  if_neg outside

end Area

namespace OskKey

variable {key other : OskKey} {row column : Nat}

/-- A key is painted where it is touched. -/
theorem Placed.inside (placed : key.Placed) (touched : key.contains column row = true) :
    inRect key.x key.y key.w key.h row column = true := by
  obtain ⟨⟨left, right, above, below⟩, _⟩ := placed
  simp only [contains, inRect, Bool.and_eq_true, decide_eq_true_eq] at touched ⊢
  omega

/-- Nothing is painted by a key elsewhere. -/
theorem Apart.outside (apart : other.Apart key) (touched : key.contains column row = true) :
    ¬ inRect other.x other.y other.w other.h row column = true := by
  simp only [Apart, contains, inRect, Bool.and_eq_true, decide_eq_true_eq] at apart touched ⊢
  omega

/-- A point lies on one key at most. -/
theorem Apart.not_both (apart : other.Apart key) {x y : Int}
    (touched : key.contains x y = true) : ¬ other.contains x y = true := by
  simp only [Apart, contains, decide_eq_true_eq] at apart touched ⊢
  omega

/-- Every layer of a keyboard shows the label of the touched key there, or nothing. -/
theorem labelArea_cases {lang : Language} (mode : OskMode) (member : key ∈ buildOskLayout lang)
    (among : other ∈ buildOskLayout lang) (touched : key.contains column row = true) :
    (other = key ∧ other.labelArea mode row column = some (some (key.label mode))) ∨
      other.labelArea mode row column = none := by
  rcases layout_apart among member with rfl | apart
  · exact .inl ⟨rfl, area_of_inside _ ((layout_placed lang _ member).inside touched)⟩
  · exact .inr (area_of_outside _ (apart.outside touched))

end OskKey

/-- The keyboard shows, in the mode it was painted in, the label of every key on all of it. -/
def Shows (current : Option OskMode) (labels : Frame Label?) : Prop :=
  ∀ mode, current = some mode → ∀ key ∈ buildOskLayout mode.lang, ∀ row column : Nat,
    key.contains column row = true → labels row column = some (key.label mode)

/-- Without a painted keyboard there is nothing to show. -/
theorem shows_none (labels : Frame Label?) : Shows none labels := fun _ same => by cases same

namespace Shows

variable {current : Option OskMode} {labels : Frame Label?}

/-- The keyboard painted as a whole. -/
theorem osk (mode : OskMode) (focused : Bool) (labels : Frame Label?) :
    Shows (some mode) (labels.overlay (ScreenCall.osk mode focused).labels) := by
  intro shown same key member row column touched
  cases same
  have painted : Layer.stack ((buildOskLayout mode.lang).map (OskKey.labelArea mode)) row column =
      some (some (key.label mode)) := by
    apply Layer.stack_of_agree
    · intro layer inLayers
      obtain ⟨other, among, rfl⟩ := List.mem_map.mp inLayers
      rcases OskKey.labelArea_cases mode member among touched with ⟨_, shows⟩ | clear
      · exact .inr shows
      · exact .inl clear
    · exact ⟨_, List.mem_map_of_mem member,
        area_of_inside _ ((layout_placed _ key member).inside touched)⟩
  have onKeys : (ScreenCall.osk mode focused).labels row column =
      some (some (key.label mode)) := by
    unfold ScreenCall.labels
    dsimp only
    rw [Layer.stack_append, Layer.onTop, painted]
    rfl
  unfold Frame.overlay
  rw [onKeys]
  rfl

/-- A layer that leaves the keys alone. -/
theorem overlay (shows : Shows current labels) {layer : Layer Label?}
    (clear : ∀ key : OskKey, key.Placed → ∀ row column : Nat, key.contains column row = true →
      layer row column = none) : Shows current (labels.overlay layer) := by
  intro mode same key member row column touched
  rw [Frame.overlay_of_none (clear key (layout_placed _ key member) row column touched)]
  exact shows mode same key member row column touched

/-- What fits on the keyboard keeps it legible. -/
theorem call (shows : Shows current labels) {call : ScreenCall} (fits : call.FitsOn current) :
    Shows (call.painted current) (labels.overlay call.labels) := by
  cases call with
  | osk mode focused => exact osk mode focused labels
  | restore backup => exact shows_none _
  | urlBar =>
      apply shows.overlay
      intro key placed row column touched
      apply area_of_outside
      simp only [OskKey.Placed, OskKey.contains, inRect, oskY, Bool.and_eq_true,
        decide_eq_true_eq] at placed touched ⊢
      omega
  | preview lang focused =>
      apply shows.overlay
      intro key placed row column touched
      apply area_of_outside
      simp only [OskKey.Placed, OskKey.contains, inRect, Bool.and_eq_true,
        decide_eq_true_eq] at placed touched ⊢
      omega
  | oskKey mode key pressed =>
      obtain ⟨same, among⟩ := fits
      intro shown sameShown other member row column touched
      have sameMode : shown = mode := Option.some_inj.mp (sameShown.symm.trans same)
      subst sameMode
      rcases OskKey.labelArea_cases shown member among touched with ⟨_, paints⟩ | clear
      · change (key.labelArea shown row column).getD (labels row column) = _
        rw [paints]
        rfl
      · change labels.overlay (key.labelArea shown) row column = _
        rw [Frame.overlay_of_none clear]
        exact shows shown sameShown other member row column touched
  | _ => exact shows

/-- Calls that fit one after the other keep the keyboard legible. -/
theorem calls (shows : Shows current labels) {calls : List ScreenCall}
    (consistent : ScreenCall.Consistent current calls) :
    Shows (calls.foldl ScreenCall.painted current)
      (calls.foldl (fun labels call => labels.overlay call.labels) labels) := by
  induction calls generalizing current labels with
  | nil => exact shows
  | cons call rest ih => exact ih (shows.call consistent.1) consistent.2

end Shows

/-! ## The mode of the keyboard on the screen -/

namespace ScreenCall

/-- Two lists of calls fit when the first does and the second on what it leaves. -/
theorem consistent_append {current : Option OskMode} {first second : List ScreenCall} :
    Consistent current (first ++ second) ↔
      Consistent current first ∧ Consistent (first.foldl painted current) second := by
  induction first generalizing current with
  | nil => exact ⟨fun all => ⟨trivial, all⟩, fun all => all.2⟩
  | cons call rest ih =>
      simp only [List.cons_append, List.foldl_cons, Consistent, ih, and_assoc]

/-- The call has nothing to do with the keys. -/
def Aside (call : ScreenCall) : Prop :=
  ∀ current, call.painted current = current ∧ call.FitsOn current

/-- Calls that have nothing to do with the keys always fit and paint no keyboard. -/
theorem aside_all {calls : List ScreenCall} (aside : ∀ call ∈ calls, call.Aside)
    (current : Option OskMode) :
    calls.foldl painted current = current ∧ Consistent current calls := by
  induction calls with
  | nil => exact ⟨rfl, trivial⟩
  | cons call rest ih =>
      rw [List.forall_mem_cons] at aside
      obtain ⟨same, fits⟩ := aside.1 current
      rw [List.foldl_cons]
      unfold Consistent
      rw [same]
      exact ⟨(ih aside.2).1, fits, (ih aside.2).2⟩

end ScreenCall

namespace State

/-- When the keyboard is up it stands painted in the current mode, and its keys are those of the
layout. -/
def Agrees (state : State) (current : Option OskMode) : Prop :=
  state.oskActive = true →
    current = some state.mode ∧ state.keys = buildOskLayout state.mode.lang

/-- Calls that fit on the keyboard and leave it painted as the new state wants it. -/
def Follows (state after : State) (calls : List ScreenCall) : Prop :=
  ∀ current, state.Agrees current →
    ScreenCall.Consistent current calls ∧
      after.Agrees (calls.foldl ScreenCall.painted current)

/-- What stands painted goes with the part of the state the keys are drawn from. -/
theorem Agrees.congr {state after : State} {current : Option OskMode}
    (agrees : state.Agrees current) (same : after.keyboard = state.keyboard) :
    after.Agrees current := by
  have active : after.oskActive = state.oskActive := congrArg Keyboard.active same
  have mode : after.mode = state.mode := congrArg Keyboard.mode same
  have keys : after.keys = state.keys := congrArg Keyboard.keys same
  unfold Agrees
  rw [active, mode, keys]
  exact agrees

namespace Follows

variable {state middle after : State} {calls : List ScreenCall}

/-- A step that leaves the keyboard alone needs no call. -/
theorem none (same : after.keyboard = state.keyboard) : state.Follows after [] :=
  fun _ agrees => ⟨trivial, agrees.congr same⟩

/-- Calls that have nothing to do with the keys. -/
theorem aside (all : ∀ call ∈ calls, call.Aside) (same : after.keyboard = state.keyboard) :
    state.Follows after calls := by
  intro current agrees
  obtain ⟨stays, consistent⟩ := ScreenCall.aside_all all current
  rw [stays]
  exact ⟨consistent, agrees.congr same⟩

/-- The keyboard is gone. -/
theorem inactive (off : after.oskActive = false) (all : ∀ current,
    state.Agrees current → ScreenCall.Consistent current calls) : state.Follows after calls := by
  intro current agrees
  refine ⟨all current agrees, fun active => ?_⟩
  rw [off] at active
  cases active

/-- The whole keyboard is painted at the end. -/
theorem osk {mode : OskMode} {focused : Bool} (shown : after.mode = mode)
    (keys : after.keys = buildOskLayout mode.lang) :
    state.Follows after [.osk mode focused] := by
  intro current _
  refine ⟨⟨trivial, trivial⟩, fun _ => ?_⟩
  rw [shown]
  exact ⟨rfl, keys⟩

/-- Two steps in a row make their calls in a row. -/
theorem append {more : List ScreenCall} (first : state.Follows middle calls)
    (second : middle.Follows after more) : state.Follows after (calls ++ more) := by
  intro current agrees
  obtain ⟨early, between⟩ := first current agrees
  obtain ⟨late, final⟩ := second _ between
  rw [List.foldl_append]
  exact ⟨ScreenCall.consistent_append.mpr ⟨early, late⟩, final⟩

/-- One key is drawn in the current mode. -/
theorem oskKey {mode : OskMode} {key : OskKey} {pressed : Bool} (current : state.mode = mode)
    (active : state.oskActive = true) (among : key ∈ state.keys)
    (same : after.keyboard = state.keyboard) :
    state.Follows after [.oskKey mode key pressed] := by
  intro painted agrees
  obtain ⟨shown, keys⟩ := agrees active
  rw [keys] at among
  rw [current] at shown among
  exact ⟨⟨⟨shown, among⟩, trivial⟩, agrees.congr same⟩

end Follows

variable (font : Font)

/-- Showing the keyboard paints it as the new state wants it. -/
theorem follows_showOsk (state : State) :
    state.Follows (state.showOsk font) state.showOskCalls := by
  unfold showOsk showOskCalls
  split
  · exact .none rfl
  · exact .osk rfl rfl

/-- After `hide_osk` the keyboard is down. -/
theorem hideOsk_inactive (state : State) : state.hideOsk.oskActive = false := by
  unfold hideOsk
  split
  · next off => simpa using off
  · rfl

/-- The calls of `hide_osk` fit on any keyboard. -/
theorem consistent_hideOskCalls (state : State) (current : Option OskMode) :
    ScreenCall.Consistent current state.hideOskCalls := by
  unfold hideOskCalls
  split
  · exact ⟨trivial, trivial⟩
  · trivial

/-- Hiding the keyboard leaves nothing to agree on. -/
theorem follows_hideOsk (state : State) : state.Follows state.hideOsk state.hideOskCalls :=
  .inactive (hideOsk_inactive state) fun current _ => consistent_hideOskCalls state current

/-- Toggling the keyboard paints it as the new state wants it. -/
theorem follows_toggleOsk (state : State) :
    state.Follows (state.toggleOsk font) state.toggleOskCalls := by
  unfold toggleOsk toggleOskCalls
  split
  · exact follows_hideOsk state
  · exact follows_showOsk font state

/-- A change of layout paints the keyboard in the new one. -/
theorem follows_switchMode (mode : OskMode) (state : State) :
    state.Follows (state.switchMode font mode) (state.switchModeCalls mode) := by
  unfold switchMode switchModeCalls
  dsimp only
  split
  · exact .osk rfl rfl
  · next off => exact .inactive (Bool.eq_false_iff.mpr off) fun _ _ => trivial

/-- An edit of the address has nothing to do with the keys. -/
theorem aside_editCalls (state : State) {edit : ScreenCall} (aside : edit.Aside) :
    ∀ call ∈ state.editCalls edit, call.Aside := by
  intro call member
  simp only [editCalls, List.mem_cons, List.not_mem_nil, or_false] at member
  rcases member with rfl | rfl | rfl
  · exact aside
  · exact fun _ => ⟨rfl, trivial⟩
  · exact fun _ => ⟨rfl, trivial⟩

/-- A guarded edit. -/
theorem aside_guarded (state : State) {edit : ScreenCall} (aside : edit.Aside) (guard : Bool) :
    ∀ call ∈ if guard then state.editCalls edit else [], call.Aside := by
  cases guard with
  | true => exact aside_editCalls state aside
  | false => exact fun call member => by cases member

/-- A key is released on the keyboard it was pressed on. -/
theorem follows_released {state after : State} {calls : List ScreenCall} {key : OskKey}
    (active : state.oskActive = true) (among : key ∈ state.keys)
    (aside : ∀ call ∈ calls, call.Aside) (same : after.keyboard = state.keyboard) :
    state.Follows (after.releaseKey font key) (calls ++ [.oskKey state.mode key false]) :=
  (Follows.aside aside same).append
    (.oskKey (congrArg Keyboard.mode same) ((congrArg Keyboard.active same).trans active)
      (by rw [show after.keys = state.keys from congrArg Keyboard.keys same]; exact among) rfl)

/-- Every key of the layout leaves the keyboard painted as the new state wants it. -/
theorem follows_pressKey {state : State} {key : OskKey} (active : state.oskActive = true)
    (among : key ∈ state.keys) :
    state.Follows (state.pressKey font key) (state.pressKeyCalls key) := by
  unfold pressKey pressKeyCalls
  cases key.action with
  | hide => exact follows_hideOsk state
  | shift | symbols | lang => exact .osk rfl rfl
  | clear =>
      refine follows_released font active among ?_ (keyboard_pressClear font state)
      unfold pressClearCalls
      split
      · exact aside_editCalls state fun _ => ⟨rfl, trivial⟩
      · intro call member
        rw [List.mem_singleton.mp member]
        exact fun _ => ⟨rfl, trivial⟩
  | backspace =>
      exact follows_released font active among
        (aside_guarded state (show ScreenCall.Aside .chop from fun _ => ⟨rfl, trivial⟩) _)
        (keyboard_pressBackspace font state)
  | space =>
      exact follows_released font active among
        (aside_guarded state (show ScreenCall.Aside (.append _) from fun _ => ⟨rfl, trivial⟩) _)
        (keyboard_pressSpace font state)
  | dotcom =>
      exact follows_released font active among
        (aside_guarded state (show ScreenCall.Aside (.append _) from fun _ => ⟨rfl, trivial⟩) _)
        (keyboard_pressDotcom font state)
  | enter =>
      have gone : (state.pressEnter font).oskActive = false := hideOsk_inactive _
      refine .inactive gone fun current _ => ?_
      unfold pressEnterCalls
      rw [ScreenCall.consistent_append]
      refine ⟨?_, consistent_hideOskCalls state _⟩
      split
      · exact ⟨trivial, trivial, trivial⟩
      · trivial
  | char =>
      have aside : ∀ call ∈ state.pressCharCalls key, call.Aside :=
        aside_guarded state (show ScreenCall.Aside (.appendChar _) from fun _ => ⟨rfl, trivial⟩) _
      have keyboard := keyboard_pressChar font key state
      have mode : (state.pressChar font key).mode = state.mode := congrArg Keyboard.mode keyboard
      dsimp only
      rw [mode]
      split
      · refine (Follows.aside aside keyboard).append (.osk ?_ ?_)
        · rfl
        · rfl
      · exact follows_released font active among aside keyboard

/-- A tap inside the keyboard leaves it painted as the new state wants it. -/
theorem follows_handleOskTouch (state : State) (active : state.oskActive = true) (x y : Int) :
    state.Follows (state.handleOskTouch font x y) (state.handleOskTouchCalls x y) := by
  unfold handleOskTouch handleOskTouchCalls
  cases found : state.keys.find? fun key => key.contains x y with
  | none => exact .none rfl
  | some key =>
      have among : key ∈ state.keys := List.mem_of_find?_eq_some found
      have drawn : state.Follows ((state.draw (drawOskKey font state.mode key true)).refresh .fast
          key.x key.y key.w key.h) [.oskKey state.mode key true] :=
        .oskKey rfl active among rfl
      exact drawn.append (follows_pressKey font active among)

/-- Giving the address the focus paints the keyboard if it was down. -/
theorem follows_focusUrl (state : State) :
    state.Follows (state.focusUrl font) { state with urlFocused := true }.showOskCalls := by
  unfold focusUrl
  exact follows_showOsk font
    ((({ state with urlFocused := true }.simulateClick 300 35).oskInjectKey sdlkEnd 0))

/-- A line from the FIFO leaves the keyboard painted as the new state wants it. -/
theorem follows_handleFifoCommand (cmd : List UInt8) (state : State) :
    state.Follows (state.handleFifoCommand font cmd) (state.handleFifoCommandCalls cmd) := by
  have typed : ∀ (text : List UInt8) (state : State),
      (state.typeText text).keyboard = state.keyboard :=
    fun text state => view_typeText (fun _ _ _ => rfl) text state
  unfold handleFifoCommand handleFifoCommandCalls
  rcases fifoCommand cmd with _ | command
  · exact .none rfl
  · cases command with
    | inject sym unicode => exact .none rfl
    | osk => exact follows_toggleOsk font state
    | lang | shift | sym => exact follows_switchMode font _ state
    | back => exact .none rfl
    | focusUrl => exact follows_focusUrl font state
    | text payload =>
        dsimp only [handleText]
        split
        · refine .aside ?_ (typed payload _)
          intro call member
          simp only [List.mem_cons, List.not_mem_nil, or_false] at member
          rcases member with rfl | rfl
          · exact fun _ => ⟨rfl, trivial⟩
          · exact fun _ => ⟨rfl, trivial⟩
        · exact .none (typed payload state)
    | url payload =>
        refine .aside ?_ ((typed payload _).trans (keyboard_clearBrowserUrlBar _))
        intro call member
        simp only [List.mem_cons, List.not_mem_nil, or_false] at member
        rcases member with rfl | rfl
        · exact fun _ => ⟨rfl, trivial⟩
        · exact fun _ => ⟨rfl, trivial⟩
    | click x y => exact fun current agrees => ⟨trivial, agrees⟩

/-- What the browser gets leaves the keyboard as it is, but for the focus. -/
theorem follows_regularTouch (state : State) : state.Follows state.regularTouch [] := by
  intro current agrees
  refine ⟨trivial, ?_⟩
  unfold regularTouch
  dsimp only
  split
  · exact agrees
  · split
    · exact agrees
    · split
      · exact agrees
      · exact agrees

/-- The end of a touch frame leaves the keyboard painted as the new state wants it. -/
theorem follows_handleFrame (state : State) :
    state.Follows (state.handleFrame font) state.handleFrameCalls := by
  unfold handleFrame handleFrameCalls
  split
  · next active =>
    split
    · unfold touchOnOsk
      split
      · exact follows_handleOskTouch font { state with touchDown := true } active _ _
      · split
        · exact .none rfl
        · exact .none rfl
    · unfold touchAboveOsk
      split
      · dsimp only
        split
        · exact follows_hideOsk state
        · exact follows_hideOsk state
      · split
        · exact .none rfl
        · exact follows_regularTouch state
  · unfold touchPage
    split
    · exact follows_focusUrl font { state with touchDown := true }
    · split
      · exact follows_showOsk font { state with touchDown := true }
      · exact follows_regularTouch state

/-- An event of the panel leaves the keyboard painted as the new state wants it. -/
theorem follows_handleTouchEvent (ev : InputEvent) (state : State) :
    state.Follows (state.handleTouchEvent font ev) (state.handleTouchEventCalls ev) := by
  unfold handleTouchEvent handleTouchEventCalls
  split
  · split
    · exact .none rfl
    · split
      · exact .none rfl
      · exact .none rfl
  · split
    · exact .none rfl
    · split
      · exact follows_handleFrame font state
      · exact .none rfl

/-- An event of the key device leaves the keyboard painted as the new state wants it. -/
theorem follows_handleKeyEvent (ev : InputEvent) (state : State) :
    state.Follows (state.handleKeyEvent font ev) (state.handleKeyEventCalls ev) := by
  unfold handleKeyEvent handleKeyEventCalls
  split
  · by_cases back : ev.code = 193
    · rw [back, if_neg (by decide), if_neg (by decide), if_pos rfl, if_pos rfl]
      split
      · exact follows_hideOsk state
      · next inactive =>
        unfold hideOskCalls
        rw [if_neg inactive]
        exact .none rfl
    · rw [if_neg back, if_neg back]
      split
      · next pageup =>
        rw [pageup]
        exact .none rfl
      · split
        · next pagedown =>
          rw [pagedown]
          exact .none rfl
        · split
          · exact follows_toggleOsk font state
          · split
            · exact follows_focusUrl font state
            · exact .none rfl
  · exact .none rfl

/-- A rectangle of the browser leaves the keyboard painted as the new state wants it. -/
theorem follows_updateRect (rect : Rect) (state : State) :
    state.Follows (state.updateRect font rect) (state.updateRectCalls rect) := by
  have refreshed : ∀ (columns rows : Span) (state : State),
      (state.refreshPage columns rows).keyboard = state.keyboard := by
    intro columns rows state
    unfold refreshPage
    dsimp only
    split <;> rfl
  unfold updateRect updateRectCalls
  cases rect.clip with
  | none => exact .none rfl
  | some spans =>
      obtain ⟨columns, rows⟩ := spans
      have shown : state.Follows (state.assertUrlBar font columns rows)
          (if rows.start < 75 ∧ columns.stop > 140 then [.urlBar] else []) := by
        unfold assertUrlBar
        split
        · refine .aside ?_ rfl
          intro call member
          rw [List.mem_singleton.mp member]
          exact fun _ => ⟨rfl, trivial⟩
        · exact .none rfl
      have keyboard := keyboard_assertUrlBar font columns rows state
      have active : (state.assertUrlBar font columns rows).oskActive = state.oskActive :=
        congrArg Keyboard.active keyboard
      have mode : (state.assertUrlBar font columns rows).mode = state.mode :=
        congrArg Keyboard.mode keyboard
      dsimp only
      refine shown.append ?_
      rw [active]
      split
      · split
        · exact .osk mode (congrArg (fun mode : OskMode => buildOskLayout mode.lang) mode)
        · have same := refreshed columns ⟨rows.start, (oskY - rows.start).toNat⟩
            ((state.assertUrlBar font columns rows).saveUnderOsk font rows)
          exact .osk ((congrArg Keyboard.mode same).trans mode)
            ((congrArg Keyboard.keys same).trans
              (congrArg (fun mode : OskMode => buildOskLayout mode.lang) mode))
      · exact .none (refreshed columns rows _)

/-- The calls of every step fit on the keyboard and leave it painted as it acts. -/
theorem follows_step (label : Label) (state : State) :
    state.Follows (state.step font label) (state.calls label) := by
  cases label with
  | touch ev => exact follows_handleTouchEvent font ev state
  | key ev => exact follows_handleKeyEvent font ev state
  | fifo cmd => exact follows_handleFifoCommand font cmd state
  | showKeyboard => exact follows_showOsk font { state with urlFocused := false }
  | browser step =>
      have painted : state.Follows (state.draw step.pixels) [.pixels step.pixels] := by
        refine .aside ?_ rfl
        intro call member
        rw [List.mem_singleton.mp member]
        exact fun _ => ⟨rfl, trivial⟩
      exact painted.append (follows_updateRect font step.rect (state.draw step.pixels))

end State

/-! ## What is shown is typed -/

/-- The shim with the labels that are painted on the screen. -/
structure Painted where
  state : State
  labels : Frame Label?

/-- A step paints the labels of its calls. -/
def Painted.step (font : Font) (painted : Painted) (label : Label) : Painted where
  state := painted.state.step font label
  labels := (painted.state.calls label).foldl (fun labels call => labels.overlay call.labels)
    painted.labels

/-- The shim from the setting of the video mode on, when no label is painted. -/
def paintedMachine (font : Font) (url : List UInt8) : Machine Painted Label where
  initial := ⟨.setVideoMode font url, fun _ _ => none⟩
  step := Painted.step font

/-- With the keyboard up, each character key has one label on all of it. A touch of the key queues
a press and a release with the code point of that label, and the point lies on no other key. -/
def TypesLabels (font : Font) (painted : Painted) : Prop :=
  painted.state.oskActive = true → ∀ key ∈ painted.state.keys, key.action = .char →
    ∃ (label : List UInt8) (typed : Keysym), codePoints label = [typed.unicode.toNat] ∧
      ∀ row column : Nat, key.contains column row = true →
        painted.labels row column = some label ∧
          (painted.state.handleOskTouch font column row).events =
            painted.state.events ++ keyPair typed ∧
          ∀ other ∈ painted.state.keys, other.contains column row = true → other = key

namespace State

variable (font : Font)

/-- The events of a character key. -/
theorem events_pressKey_char {state : State} {key : OskKey} (isChar : key.action = .char) :
    (state.pressKey font key).events =
      state.events ++ keyPair (typedKey (key.unicode state.mode)) := by
  have pressed : (state.pressChar font key).events =
      state.events ++ keyPair (typedKey (key.unicode state.mode)) := by
    have edited : (if (state.urlFocused && decide (state.url.length < urlSize - 6)) = true then
        state.editUrl font (state.url ++ charBytes (key.unicode state.mode)) else state).events =
          state.events := by
      split
      · exact events_editUrl font state _
      · rfl
    unfold pressChar
    exact congrArg (· ++ keyPair (typedKey (key.unicode state.mode))) edited
  unfold pressKey
  rw [isChar]
  dsimp only
  split
  · exact pressed
  · exact pressed

end State

/-- With the keyboard painted in the current mode, the keys type what they show. -/
theorem typesLabels_of_shows (font : Font) {painted : Painted} {current : Option OskMode}
    (agrees : painted.state.Agrees current) (shows : Shows current painted.labels) :
    TypesLabels font painted := by
  intro active key member isChar
  obtain ⟨shown, keys⟩ := agrees active
  rw [keys] at member ⊢
  obtain ⟨types, narrow⟩ := layout_types painted.state.mode key member isChar
  refine ⟨key.label painted.state.mode, typedKey (key.unicode painted.state.mode), ?_, ?_⟩
  · rw [types]
    exact congrArg (fun codePoint => [codePoint]) (UInt16.toNat_ofNat_of_lt' narrow).symm
  · intro row column touched
    have unique : ∀ other ∈ buildOskLayout painted.state.mode.lang,
        other.contains column row = true → other = key := by
      intro other among touchesToo
      rcases layout_apart among member with same | apart
      · exact same
      · exact absurd touchesToo (apart.not_both touched)
    refine ⟨shows _ shown key member row column touched, ?_, unique⟩
    -- the search finds the key, for no other one contains the point
    cases found : painted.state.keys.find? fun key => key.contains column row with
    | none =>
        rw [keys, List.find?_eq_none] at found
        exact absurd touched (found key member)
    | some first =>
        have among := List.mem_of_find?_eq_some found
        rw [keys] at among
        have same := unique first among
          (List.find?_some (p := fun key : OskKey => key.contains column row) found)
        unfold State.handleOskTouch
        rw [found, same]
        exact State.events_pressKey_char font isChar

/-- In every reachable state with the keyboard up, what the keyboard shows is what it types. -/
theorem keyboard_types_labels (font : Font) (url : List UInt8) (labels : List Label) :
    (paintedMachine font url).Always (TypesLabels font) (paintedMachine font url).initial
      labels := by
  refine Machine.always_of_invariant
    (fun painted => ∃ current, painted.state.Agrees current ∧ Shows current painted.labels)
    ?_ ?_ ?_ labels
  · rintro painted ⟨current, agrees, shows⟩
    exact typesLabels_of_shows font agrees shows
  · rintro painted label ⟨current, agrees, shows⟩
    obtain ⟨consistent, after⟩ := painted.state.follows_step font label current agrees
    exact ⟨_, after, shows.calls consistent⟩
  · exact ⟨none, (fun active => absurd active Bool.false_ne_true), shows_none _⟩

end Nookobo.Shim
