import Nookobo.Semantics.Run
import Nookobo.Shim.Input
import Nookobo.Text.Encoding

/-!
# The address as a text

`g_current_url` is a byte string; the user and the browser see characters. A
`Draft` keeps beside the shim the text an editor of characters would hold: it
appends the code points that were injected, takes the last one away on a
backspace and starts afresh on a clear. `url_edited_by_characters` says that the
bytes are the encoding of this text along exactly those touches on which every
backspace finds a character of one byte at the end.
-/

namespace Nookobo.Shim

open Nookobo.Semantics Nookobo.Text

/-- The character a key event carries to the browser. -/
def Event.typed : Event → Option Char
  | .keyDown key => some (Char.ofNat key.unicode.toNat)
  | _ => none

/-- The characters injected between two states. -/
def injected (before after : State) : List Char :=
  (after.events.drop before.events.length).filterMap Event.typed

/-- What a key does to a text, given the characters it injects. -/
def KeyAction.edit (typed : List Char) (text : List Char) : KeyAction → List Char
  | .char | .space | .dotcom => text ++ typed
  | .backspace => text.dropLast
  | .clear => []
  | .enter | .shift | .symbols | .lang | .hide => text

/-- The shim with the text its address should be. -/
structure Draft where
  state : State
  text : List Char

/-- The key under a touch. -/
def State.keyAt (state : State) (x y : Int) : Option OskKey :=
  state.keys.find? fun key => key.contains x y

namespace Draft

variable (font : Font)

/-- A touch of the keyboard. -/
def touch (draft : Draft) (point : Int × Int) : Draft :=
  let after := draft.state.handleOskTouch font point.1 point.2
  { state := after
    text :=
      match draft.state.keyAt point.1 point.2 with
      | none => draft.text
      | some key => key.action.edit (injected draft.state after) draft.text }

/-- The address is the encoding of the text. -/
def Faithful (draft : Draft) : Prop := draft.state.url = encoded draft.text

/-- The keyboard shows one of its layouts, the address bar has the focus and the address is the
encoding of the text. -/
structure Ready (draft : Draft) : Prop where
  faithful : draft.Faithful
  focused : draft.state.urlFocused = true
  layout : ∃ lang, draft.state.keys = buildOskLayout lang

/-- The touch neither leaves the keyboard nor sends the address, and there is room. -/
def Edits (draft : Draft) (point : Int × Int) : Prop :=
  (∀ key ∈ draft.state.keyAt point.1 point.2, key.action ≠ .hide ∧ key.action ≠ .enter) ∧
    draft.state.url.length < 1018

/-- A backspace finds a character of one byte at the end, or nothing. -/
def WholeCharacter (draft : Draft) (point : Int × Int) : Prop :=
  ∀ key ∈ draft.state.keyAt point.1 point.2, key.action = .backspace →
    ∀ byte ∈ draft.state.url.getLast?, byte < 0x80

instance (draft : Draft) : Decidable draft.Faithful := inferInstanceAs (Decidable (_ = _))

instance (draft : Draft) (point : Int × Int) : Decidable (draft.Edits point) :=
  inferInstanceAs (Decidable (_ ∧ _))

instance (draft : Draft) (point : Int × Int) : Decidable (draft.WholeCharacter point) :=
  inferInstanceAs (Decidable (∀ key ∈ draft.state.keyAt point.1 point.2, _))

end Draft

/-- Touches of the keyboard from a given state on. -/
def draftMachine (font : Font) (start : Draft) : Machine Draft (Int × Int) where
  initial := start
  step := Draft.touch font

/-! ## The layouts -/

/-- Every character key of both layouts sends a code point below U+0800. -/
theorem unicode_lt {lang : Language} {key : OskKey} (member : key ∈ buildOskLayout lang)
    (isChar : key.action = .char) (mode : OskMode) : key.unicode mode < 0x800 := by
  have small : ∀ lang : Language, ∀ key ∈ buildOskLayout lang, key.action = .char →
      key.unicodeNorm < 0x800 ∧ key.unicodeShift < 0x800 ∧ key.unicodeSym < 0x800 := by
    intro lang
    cases lang <;> decide +kernel
  obtain ⟨norm, shift, sym⟩ := small lang key member isChar
  unfold OskKey.unicode
  split
  · exact sym
  · split
    · exact shift
    · exact norm

/-- The bytes of a key's character are its UTF-8 encoding. -/
theorem charBytes_eq {codePoint : Nat} (small : codePoint < 0x800) :
    State.charBytes codePoint = encoded [Char.ofNat codePoint] := by
  rw [encoded_singleton, utf8EncodeChar_ofNat small]
  unfold State.charBytes
  rw [if_pos small]

/-! ## What the keys do to the address -/

namespace State

variable (font : Font)

/-- The part of the state a touch of the keyboard edits. -/
def textView (state : State) : List UInt8 × Bool × List OskKey :=
  (state.url, state.urlFocused, state.keys)

/-- A key that appends some bytes and injects the characters they stand for. -/
structure Types (before after : State) (bytes : List UInt8) (chars : List Char) : Prop where
  view : after.textView = (before.url ++ bytes, before.urlFocused, before.keys)
  events : ∃ new, after.events = before.events ++ new ∧ new.filterMap Event.typed = chars

/-- The characters a typing key injects. -/
theorem Types.injected {before after : State} {bytes : List UInt8} {chars : List Char}
    (types : before.Types after bytes chars) : injected before after = chars := by
  obtain ⟨new, events, typed⟩ := types.events
  unfold Shim.injected
  rw [events, List.drop_left, typed]

/-- An edit of the address changes neither focus nor keys. -/
theorem textView_editUrl (state : State) (url : List UInt8) :
    (state.editUrl font url).textView = (url, state.urlFocused, state.keys) := by
  have keeps : ∀ (state : State) (layer : Layer UInt16) (mode : Refresh) (x y w h : Int),
      ((state.draw layer).refresh mode x y w h).textView = state.textView :=
    fun _ _ _ _ _ _ _ => rfl
  rw [editUrl, showUrl, showPreview, keeps, keeps]
  rfl

/-- An edit of the address injects nothing. -/
theorem events_editUrl (state : State) (url : List UInt8) :
    (state.editUrl font url).events = state.events := by
  have keeps : ∀ (state : State) (layer : Layer UInt16) (mode : Refresh) (x y w h : Int),
      ((state.draw layer).refresh mode x y w h).events = state.events :=
    fun _ _ _ _ _ _ _ => rfl
  rw [editUrl, showUrl, showPreview, keeps, keeps]

/-- A key for the page edits nothing. -/
theorem textView_oskInjectKey (state : State) (sym unicode : Nat) :
    (state.oskInjectKey sym unicode).textView = state.textView := rfl

/-- Bytes are appended and one key is injected for them. -/
theorem types_of_editUrl (state : State) (bytes : List UInt8) (sym unicode : Nat) :
    state.Types ((state.editUrl font (state.url ++ bytes)).oskInjectKey sym unicode) bytes
      [Char.ofNat unicode.toUInt16.toNat] where
  view := by rw [textView_oskInjectKey, textView_editUrl]
  events := ⟨_, congrArg (· ++ _) (events_editUrl font state _), rfl⟩

/-- The Clear key leaves the address empty. -/
theorem pressClear_textView {state : State} (focused : state.urlFocused = true) :
    (state.pressClear font).textView = ([], state.urlFocused, state.keys) := by
  have cleared : ∀ state : State, state.clearBrowserUrlBar.textView = state.textView :=
    fun state => view_clearBrowserUrlBar (fun _ _ _ => rfl) (fun _ _ _ => rfl) state
  unfold pressClear
  rw [if_pos focused, cleared]
  exact textView_editUrl font state []

/-- The Backspace key takes one byte away. -/
theorem pressBackspace_textView {state : State} (focused : state.urlFocused = true) :
    (state.pressBackspace font).textView =
      (state.url.dropLast, state.urlFocused, state.keys) := by
  unfold pressBackspace
  rw [focused, Bool.true_and, textView_oskInjectKey]
  cases empty : state.url.isEmpty with
  | true =>
      rw [List.isEmpty_iff] at empty
      rw [if_neg (by decide), empty, List.dropLast_nil, ← empty, ← focused]
      rfl
  | false =>
      rw [if_pos (by decide), textView_editUrl, focused]

/-- The Space key types a space. -/
theorem pressSpace_types {state : State} (focused : state.urlFocused = true)
    (room : state.url.length < 1018) : state.Types (state.pressSpace font) [32] [' '] := by
  have fits : (state.urlFocused && decide (state.url.length < urlSize - 2)) = true := by
    rw [focused, Bool.true_and, decide_eq_true_eq]
    exact Nat.lt_of_lt_of_le room (by decide)
  unfold pressSpace
  rw [if_pos fits]
  exact types_of_editUrl font state [32] sdlkSpace 32

/-- A letter key types its character. -/
theorem pressChar_types {state : State} (focused : state.urlFocused = true)
    (room : state.url.length < 1018) {key : OskKey} (small : key.unicode state.mode < 0x800) :
    state.Types (state.pressChar font key) (charBytes (key.unicode state.mode))
      [Char.ofNat (key.unicode state.mode)] := by
  have fits : (state.urlFocused && decide (state.url.length < urlSize - 6)) = true := by
    rw [focused, Bool.true_and, decide_eq_true_eq]
    exact room
  have narrow : (key.unicode state.mode).toUInt16.toNat = key.unicode state.mode :=
    UInt16.toNat_ofNat_of_lt' (by simp only [UInt16.size]; omega)
  have types := types_of_editUrl font state (charBytes (key.unicode state.mode))
    (if key.unicode state.mode < 128 then toLower (key.unicode state.mode)
      else key.unicode state.mode) (key.unicode state.mode)
  rw [narrow] at types
  unfold pressChar
  dsimp only
  rw [if_pos fits]
  exact types

/-- What the key under the address bar adds. -/
def extension (lang : Language) : List Char :=
  if lang = .english then ['.', 'c', 'o', 'm'] else ['.', 'r', 'u']

/-- The keys injected for some bytes, one after the other. -/
theorem events_injectBytes (bytes : List UInt8) (state : State) :
    (bytes.foldl (fun state byte => state.oskInjectKey byte.toNat byte.toNat) state).events =
      state.events ++ bytes.flatMap fun byte =>
        [.keyDown ⟨byte.toNat.toUInt8, byte.toNat, byte.toNat.toUInt16⟩,
          .keyUp ⟨byte.toNat.toUInt8, byte.toNat, byte.toNat.toUInt16⟩] := by
  induction bytes generalizing state with
  | nil => exact (List.append_nil _).symm
  | cons byte rest ih =>
      rw [List.foldl_cons, ih, List.flatMap_cons, ← List.append_assoc]
      rfl

/-- The `.com` key types its extension. -/
theorem pressDotcom_types {state : State} (focused : state.urlFocused = true)
    (room : state.url.length < 1018) :
    state.Types (state.pressDotcom font) (encoded (extension state.mode.lang))
      (extension state.mode.lang) := by
  have fits : (state.urlFocused && decide (state.url.length < urlSize - 6)) = true := by
    rw [focused, Bool.true_and, decide_eq_true_eq]
    exact room
  have sameView : ∀ (bytes : List UInt8) (state : State),
      (bytes.foldl (fun state byte => state.oskInjectKey byte.toNat byte.toNat) state).textView =
        state.textView := by
    intro bytes state
    apply view_foldl
    exact fun _ _ => rfl
  unfold pressDotcom
  dsimp only
  rw [if_pos fits]
  constructor
  · rw [sameView, textView_editUrl]
    cases state.mode.lang <;> rfl
  · refine ⟨_, (events_injectBytes _ _).trans (congrArg (· ++ _) (events_editUrl font state _)), ?_⟩
    cases state.mode.lang <;> rfl

end State

namespace Draft

variable (font : Font)

/-- A touch beside the keys does nothing. -/
theorem touch_none {draft : Draft} {point : Int × Int}
    (none : draft.state.keyAt point.1 point.2 = none) : draft.touch font point = draft := by
  unfold touch
  rw [none]
  unfold State.keyAt at none
  unfold State.handleOskTouch
  rw [none]

/-- The state with the key drawn as pressed, before the key acts. -/
def shown (draft : Draft) (key : OskKey) : State :=
  (draft.state.draw (drawOskKey font draft.state.mode key true)).refresh .fast key.x key.y key.w
    key.h

/-- A touch of a key does what the key does, and to the text what it should. -/
theorem touch_some {draft : Draft} {point : Int × Int} {key : OskKey}
    (found : draft.state.keyAt point.1 point.2 = some key) :
    draft.touch font point =
      ⟨(draft.shown font key).pressKey font key,
        key.action.edit
          (injected (draft.shown font key) ((draft.shown font key).pressKey font key))
          draft.text⟩ := by
  have handled : draft.state.handleOskTouch font point.1 point.2 =
      (draft.shown font key).pressKey font key := by
    unfold State.keyAt at found
    unfold State.handleOskTouch
    rw [found]
    rfl
  unfold touch
  rw [found, handled]
  rfl

/-- The text of a draft whose key typed something follows the address. -/
theorem Ready.types {draft : Draft} {key : OskKey} {after : State} {bytes : List UInt8}
    {chars : List Char} (ready : draft.Ready) (same : bytes = encoded chars)
    (types : (draft.shown font key).Types after bytes chars) :
    after.urlFocused = true ∧ after.keys = draft.state.keys ∧
      after.url = encoded (draft.text ++ injected (draft.shown font key) after) := by
  have view := types.view
  simp only [State.textView, Prod.mk.injEq] at view
  obtain ⟨url, focused, keys⟩ := view
  refine ⟨focused.trans ready.focused, keys, ?_⟩
  rw [types.injected, encoded_append, ← same, url]
  exact congrArg (· ++ bytes) ready.faithful

/-- A key other than Backspace, Hide and Enter keeps the focus and a layout and does to the address
what it does to the text. -/
theorem Ready.pressKey {draft : Draft} {key : OskKey} (ready : draft.Ready)
    (room : draft.state.url.length < 1018) (shows : key ∈ draft.state.keys)
    (stays : key.action ≠ .hide ∧ key.action ≠ .enter) (keeps : key.action ≠ .backspace) :
    ((draft.shown font key).pressKey font key).urlFocused = true ∧
      (∃ lang, ((draft.shown font key).pressKey font key).keys = buildOskLayout lang) ∧
      ((draft.shown font key).pressKey font key).url =
        encoded (key.action.edit
          (injected (draft.shown font key) ((draft.shown font key).pressKey font key))
          draft.text) := by
  have focused : (draft.shown font key).urlFocused = true := ready.focused
  have space : (draft.shown font key).url.length < 1018 := room
  obtain ⟨lang, layout⟩ := ready.layout
  unfold State.pressKey
  cases action : key.action with
  | hide => exact absurd action stays.1
  | enter => exact absurd action stays.2
  | backspace => exact absurd action keeps
  | shift | symbols | lang => exact ⟨ready.focused, ⟨_, rfl⟩, ready.faithful⟩
  | clear =>
      have view := State.pressClear_textView font focused
      simp only [State.textView, Prod.mk.injEq] at view
      obtain ⟨url, focus, keys⟩ := view
      exact ⟨focus.trans focused, ⟨lang, keys.trans layout⟩, url⟩
  | space =>
      obtain ⟨focus, keys, url⟩ :=
        ready.types font (by decide) (State.pressSpace_types font focused space)
      exact ⟨focus, ⟨lang, keys.trans layout⟩, url⟩
  | dotcom =>
      obtain ⟨focus, keys, url⟩ :=
        ready.types font rfl (State.pressDotcom_types font focused space)
      exact ⟨focus, ⟨lang, keys.trans layout⟩, url⟩
  | char =>
      have small := unicode_lt (layout ▸ shows) action (draft.shown font key).mode
      obtain ⟨focus, keys, url⟩ := ready.types font (charBytes_eq small)
        (State.pressChar_types font focused space small)
      dsimp only
      split
      · exact ⟨focus, ⟨_, rfl⟩, url⟩
      · exact ⟨focus, ⟨lang, keys.trans layout⟩, url⟩

/-- Backspace takes a byte of the address and a character of the text. -/
theorem Ready.pressBackspace {draft : Draft} (ready : draft.Ready) (key : OskKey) :
    ((draft.shown font key).pressBackspace font).urlFocused = true ∧
      (∃ lang, ((draft.shown font key).pressBackspace font).keys = buildOskLayout lang) ∧
      (((draft.shown font key).pressBackspace font).url = encoded draft.text.dropLast ↔
        ∀ byte ∈ draft.state.url.getLast?, byte < 0x80) := by
  have focused : (draft.shown font key).urlFocused = true := ready.focused
  obtain ⟨lang, layout⟩ := ready.layout
  have view := State.pressBackspace_textView font focused
  simp only [State.textView, Prod.mk.injEq] at view
  obtain ⟨url, focus, keys⟩ := view
  have faithful : draft.state.url = encoded draft.text := ready.faithful
  have erased : (draft.shown font key).url.dropLast = (encoded draft.text).dropLast :=
    congrArg List.dropLast faithful
  refine ⟨focus.trans focused, ⟨lang, keys.trans layout⟩, ?_⟩
  rw [url, erased, faithful]
  exact dropLast_encoded_iff draft.text

/-- A touch keeps the focus and a layout, and it keeps the text exactly when it meets the
condition on backspace. -/
theorem Ready.touch {draft : Draft} {point : Int × Int} (ready : draft.Ready)
    (edits : draft.Edits point) :
    (draft.touch font point).state.urlFocused = true ∧
      (∃ lang, (draft.touch font point).state.keys = buildOskLayout lang) ∧
      ((draft.touch font point).Faithful ↔ draft.WholeCharacter point) := by
  cases found : draft.state.keyAt point.1 point.2 with
  | none =>
      rw [touch_none font found]
      refine ⟨ready.focused, ready.layout, fun _ => ?_, fun _ => ready.faithful⟩
      simp [WholeCharacter, found]
  | some key =>
      obtain ⟨allowed, room⟩ := edits
      have meets : draft.WholeCharacter point ↔
          (key.action = .backspace → ∀ byte ∈ draft.state.url.getLast?, byte < 0x80) := by
        constructor
        · exact fun whole => whole key found
        · intro low pressed isPressed
          rw [found] at isPressed
          cases isPressed
          exact low
      rw [touch_some font found, meets]
      unfold Faithful
      by_cases erases : key.action = .backspace
      · obtain ⟨focus, layout, faithful⟩ := ready.pressBackspace font key
        simp only [State.pressKey, erases, forall_const]
        exact ⟨focus, layout, faithful⟩
      · obtain ⟨focus, layout, faithful⟩ := ready.pressKey font room
          (List.mem_of_find?_eq_some found) (allowed key found) erases
        exact ⟨focus, layout, iff_of_true faithful fun other => absurd other erases⟩

end Draft

/-- The address is the encoding of the text an editor of characters holds, along exactly those
touches on which every backspace finds a character of one byte at the end. -/
theorem url_edited_by_characters (font : Font) (start : Draft) (ready : start.Ready)
    (points : List (Int × Int))
    (edits : (draftMachine font start).StepsMeet Draft.Edits start points) :
    (draftMachine font start).Always Draft.Faithful start points ↔
      (draftMachine font start).StepsMeet Draft.WholeCharacter start points := by
  refine Machine.always_iff_stepsMeet Draft.Ready ?_ ?_ ?_ ready edits
  · exact fun draft ready => ready.faithful
  · intro draft point ready edits whole
    obtain ⟨focused, layout, faithful⟩ := ready.touch font edits
    exact ⟨faithful.mpr whole, focused, layout⟩
  · intro draft point ready edits torn faithful
    obtain ⟨_, _, same⟩ := ready.touch font edits
    exact torn (same.mp faithful)

/-- An empty address with the keyboard in a language. -/
def blankDraft (lang : Language) : Draft where
  state := { keys := buildOskLayout lang, mode := { lang := lang }, url := [] }
  text := []

/-- `q`, `.com`, Backspace: all of one byte. -/
theorem url_edited_by_characters_ascii :
    (draftMachine inklessFont (blankDraft .english)).StepsMeet Draft.Edits (blankDraft .english)
        [(20, 1440), (900, 1750), (1180, 1330)] ∧
      (draftMachine inklessFont (blankDraft .english)).Always Draft.Faithful (blankDraft .english)
        [(20, 1440), (900, 1750), (1180, 1330)] :=
  ⟨by decide +kernel, (url_edited_by_characters inklessFont (blankDraft .english)
    ⟨rfl, rfl, .english, rfl⟩ _ (by decide +kernel)).mpr (by decide +kernel)⟩

/-- `й`, Backspace: the first of its two bytes stays behind. -/
theorem backspace_splits_character :
    (draftMachine inklessFont (blankDraft .russian)).StepsMeet Draft.Edits (blankDraft .russian)
        [(20, 1440), (1180, 1330)] ∧
      ¬ (draftMachine inklessFont (blankDraft .russian)).Always Draft.Faithful
        (blankDraft .russian) [(20, 1440), (1180, 1330)] := by
  decide +kernel

end Nookobo.Shim
