import Nookobo.Semantics.Run
import Nookobo.Shim.Calls
import Nookobo.Shim.RemoteText

/-!
# Typing into a page

When a text field of the page has the caret, `g_url_bar_focused` is false and the shim's copy of
the address is not to follow the typing. The keyboard asks for the focus before every edit; the
`TEXT:` command from the phone does not. `page_typing_exact` says that it is the only way the
address is disturbed.
-/

namespace Nookobo.Shim

open Nookobo.Semantics Nookobo.Text

/-- The shim from the setting of the video mode on. -/
def shimMachine (font : Font) (url : List UInt8) : Machine State Label where
  initial := .setVideoMode font url
  step := State.step font

namespace State

variable (font : Font)

/-- The record ends a frame that is handed to `handle_osk_touch`. -/
def TouchesOsk (state : State) (ev : InputEvent) : Prop :=
  ev.type = 0 ∧ ev.code = 0 ∧ state.oskActive = true ∧ oskY ≤ state.mappedY ∧
    state.pressing = true

/-- A touch of the keyboard, or a `KEY:` or `TEXT:` command other than `KEY:focus_url`. -/
def TextEntry (state : State) : Label → Prop
  | .touch ev => state.TouchesOsk ev
  | .fifo cmd =>
      ((ascii "KEY:").isPrefixOf cmd = true ∧ cmd ≠ ascii "KEY:focus_url") ∨
        (ascii "TEXT:").isPrefixOf cmd = true
  | _ => False

/-- Text entered into the page leaves the address alone. -/
def Undisturbed (state : State) (label : Label) : Prop :=
  state.urlFocused = false → state.TextEntry label →
    (state.step font label).urlFocused = false → (state.step font label).url = state.url

/-- A text from the phone that fits behind the address, while the page has the focus. -/
def TypesBehind (state : State) : Label → Prop
  | .fifo cmd =>
      state.urlFocused = false ∧ (ascii "TEXT:").isPrefixOf cmd = true ∧ cmd.drop 5 ≠ [] ∧
        state.url.length + (cmd.drop 5).length < urlSize - 1
  | _ => False

/-! ## The address after a step -/

/-- Some calls leave the address alone. -/
def Quiet (calls : List ScreenCall) : Prop := ∀ call ∈ calls, ∀ url, call.edit url = url

/-- Quiet calls leave the address alone. -/
theorem foldl_edit_of_quiet {calls : List ScreenCall} (quiet : Quiet calls) (url : List UInt8) :
    calls.foldl ScreenCall.edit url = url := by
  induction calls with
  | nil => rfl
  | cons call rest ih =>
      rw [List.foldl_cons, quiet call List.mem_cons_self url]
      exact ih fun other member => quiet other (List.mem_cons_of_mem _ member)

/-- A step whose calls are quiet leaves the address alone. -/
theorem url_step_of_quiet {state : State} {label : Label} (quiet : Quiet (state.calls label)) :
    (state.step font label).url = state.url :=
  (url_step font label state).trans (foldl_edit_of_quiet quiet state.url)

/-- Two quiet lists of calls are quiet together. -/
theorem quiet_append {first second : List ScreenCall} (early : Quiet first) (late : Quiet second) :
    Quiet (first ++ second) := by
  intro call member
  rcases List.mem_append.mp member with inFirst | inSecond
  · exact early call inFirst
  · exact late call inSecond

/-- No calls are quiet. -/
theorem quiet_nil : Quiet [] := fun _ member => by cases member

/-- A call that edits nothing is quiet. -/
theorem quiet_singleton {call : ScreenCall} (keeps : ∀ url, call.edit url = url) :
    Quiet [call] := by
  intro other member
  rw [List.mem_singleton.mp member]
  exact keeps

/-- Hiding the keyboard is quiet. -/
theorem quiet_hideOskCalls (state : State) : Quiet state.hideOskCalls := by
  unfold hideOskCalls
  split
  · exact quiet_singleton fun _ => rfl
  · exact quiet_nil

/-- Showing the keyboard is quiet. -/
theorem quiet_showOskCalls (state : State) : Quiet state.showOskCalls := by
  unfold showOskCalls
  split
  · exact quiet_nil
  · exact quiet_singleton fun _ => rfl

/-- A change of layout is quiet. -/
theorem quiet_switchModeCalls (mode : OskMode) (state : State) :
    Quiet (state.switchModeCalls mode) := by
  unfold switchModeCalls
  split
  · exact quiet_singleton fun _ => rfl
  · exact quiet_nil

/-! ## The keyboard -/

/-- Without the focus no key edits the address. -/
theorem quiet_pressKeyCalls {state : State} (unfocused : state.urlFocused = false) (key : OskKey) :
    Quiet (state.pressKeyCalls key) := by
  have released : Quiet [ScreenCall.oskKey state.mode key false] := quiet_singleton fun _ => rfl
  have guarded : ∀ (condition : Bool) (calls : List ScreenCall),
      (if state.urlFocused && condition then calls else []) = [] := by
    intro condition calls
    rw [unfocused]
    rfl
  unfold pressKeyCalls
  cases key.action with
  | hide => exact quiet_hideOskCalls state
  | clear =>
      unfold pressClearCalls
      rw [unfocused, if_neg (by decide)]
      exact quiet_append (quiet_singleton fun _ => rfl) released
  | shift | symbols | lang => exact quiet_singleton fun _ => rfl
  | backspace =>
      dsimp only [pressBackspaceCalls]
      rw [guarded]
      exact released
  | space =>
      dsimp only [pressSpaceCalls]
      rw [guarded]
      exact released
  | enter =>
      dsimp only [pressEnterCalls]
      rw [guarded]
      exact quiet_hideOskCalls state
  | dotcom =>
      dsimp only [pressDotcomCalls]
      rw [guarded]
      exact released
  | char =>
      dsimp only [pressCharCalls]
      rw [guarded]
      split
      · exact quiet_singleton fun _ => rfl
      · exact released

/-- Without the focus, a touch of the keyboard leaves the address alone. -/
theorem url_touch {state : State} {ev : InputEvent} (unfocused : state.urlFocused = false)
    (touches : state.TouchesOsk ev) : (state.step font (.touch ev)).url = state.url := by
  obtain ⟨syn, report, active, below, pressing⟩ := touches
  apply url_step_of_quiet
  have calls : state.calls (.touch ev) = state.handleOskTouchCalls state.mappedX state.mappedY := by
    unfold State.calls handleTouchEventCalls handleFrameCalls
    dsimp only
    rw [syn, report, active, if_neg (by decide), if_neg (by decide), if_pos (by decide),
      if_pos rfl, if_pos below, pressing, if_pos rfl]
  rw [calls]
  unfold handleOskTouchCalls
  split
  · exact quiet_nil
  · exact quiet_append (quiet_singleton fun _ => rfl) (quiet_pressKeyCalls unfocused _)

/-! ## Commands from the phone -/

/-- None of the names after `KEY:` carries an address. -/
def FifoCommand.isKey : FifoCommand → Bool
  | .text _ | .url _ | .click _ _ => false
  | _ => true

/-- The commands behind `KEY:` are keys. -/
theorem isKey_of_lookup {name : List UInt8} {command : FifoCommand}
    (found : keyCommands.lookup name = some command) : FifoCommand.isKey command = true := by
  have all : ∀ entry ∈ keyCommands, FifoCommand.isKey entry.2 = true := by decide
  obtain ⟨before, after, entries, _⟩ := List.lookup_eq_some_iff.mp found
  exact all (name, command) (by rw [entries]; simp)

/-- A line with `KEY:` leaves the address alone. -/
theorem url_key {state : State} {cmd : List UInt8}
    (isKey : (ascii "KEY:").isPrefixOf cmd = true) :
    (state.step font (.fifo cmd)).url = state.url := by
  apply url_step_of_quiet
  unfold State.calls handleFifoCommandCalls fifoCommand
  dsimp only
  rw [if_pos isKey]
  cases found : keyCommands.lookup (cmd.drop 4) with
  | none => exact quiet_nil
  | some command =>
      have key := isKey_of_lookup found
      cases command with
      | text | url | click => cases key
      | osk =>
          dsimp only [toggleOskCalls]
          split
          · exact quiet_hideOskCalls state
          · exact quiet_showOskCalls state
      | lang | shift | sym => exact quiet_switchModeCalls _ state
      | focusUrl => exact quiet_showOskCalls _
      | inject | back => exact quiet_nil

/-- A text goes behind the address when it fits. -/
theorem url_text (payload : List UInt8) (state : State) :
    (state.step font (.fifo (ascii "TEXT:" ++ payload))).url =
      if state.url.length + payload.length < urlSize - 1 then state.url ++ payload
      else state.url := by
  have edited := url_step font (.fifo (ascii "TEXT:" ++ payload)) state
  have calls : state.calls (.fifo (ascii "TEXT:" ++ payload)) =
      if state.url.length + payload.length < urlSize - 1 then [.append payload, .urlBar]
      else [] := by
    unfold State.calls handleFifoCommandCalls
    dsimp only
    rw [fifoCommand_text]
  rw [calls] at edited
  refine edited.trans ?_
  split
  · rfl
  · rfl

/-- A line with `TEXT:` moves no focus. -/
theorem urlFocused_text (payload : List UInt8) (state : State) :
    (state.step font (.fifo (ascii "TEXT:" ++ payload))).urlFocused = state.urlFocused := by
  have typed : ∀ (text : List UInt8) (state : State),
      (state.typeText text).urlFocused = state.urlFocused :=
    fun text state => view_typeText (fun _ _ _ => rfl) text state
  change (state.handleFifoCommand font (ascii "TEXT:" ++ payload)).urlFocused = _
  unfold handleFifoCommand
  rw [fifoCommand_text]
  dsimp only [handleText]
  rw [typed]
  split
  · rfl
  · rfl

/-- A step leaves page typing alone exactly when it is not a text sent behind it. -/
theorem undisturbed_iff (state : State) (label : Label) :
    state.Undisturbed font label ↔ ¬ state.TypesBehind label := by
  cases label with
  | touch ev =>
      exact ⟨fun _ behind => behind, fun _ unfocused touches _ =>
        url_touch font unfocused touches⟩
  | key ev => exact ⟨fun _ behind => behind, fun _ _ entry => entry.elim⟩
  | showKeyboard => exact ⟨fun _ behind => behind, fun _ _ entry => entry.elim⟩
  | browser step => exact ⟨fun _ behind => behind, fun _ _ entry => entry.elim⟩
  | fifo cmd =>
      constructor
      · rintro undisturbed ⟨unfocused, isText, someText, fits⟩
        obtain ⟨payload, rfl⟩ := List.isPrefixOf_iff_prefix.mp isText
        have same := undisturbed unfocused (.inr isText)
          ((urlFocused_text font payload state).trans unfocused)
        change _ ≠ [] at someText
        change _ + payload.length < _ at fits
        rw [url_text, if_pos fits, List.append_right_eq_self] at same
        exact someText same
      · intro fine unfocused entry _
        rcases entry with isKey | isText
        · exact url_key font isKey.1
        · obtain ⟨payload, rfl⟩ := List.isPrefixOf_iff_prefix.mp isText
          rw [url_text]
          split
          · next fits =>
            by_cases empty : payload = []
            · rw [empty, List.append_nil]
            · exact absurd ⟨unfocused, isText, empty, fits⟩ fine
          · rfl

end State

/-- Along every run, what is typed while the page has the focus leaves the address alone exactly
when no step is a nonempty text from the phone that fits behind the address. -/
theorem page_typing_exact (font : Font) (url : List UInt8) (labels : List Label) :
    (shimMachine font url).StepsMeet (State.Undisturbed font) (shimMachine font url).initial
        labels ↔
      (shimMachine font url).StepsMeet (fun state label => ¬ state.TypesBehind label)
        (shimMachine font url).initial labels :=
  Machine.stepsMeet_congr (State.undisturbed_iff font)

/-- A field of the page gets the caret, and the phone sends a letter. -/
theorem page_typing_into_address :
    ¬ (shimMachine inklessFont (ascii "http://a.b")).StepsMeet (State.Undisturbed inklessFont)
      (shimMachine inklessFont (ascii "http://a.b")).initial
      [.showKeyboard, .fifo (ascii "TEXT:x")] := by
  rintro ⟨_, undisturbed, _⟩
  exact absurd (undisturbed (by decide +kernel) (.inr (by decide)) (by decide +kernel))
    (by decide +kernel)

end Nookobo.Shim
