import Mathlib.Data.List.TakeWhile
import Nookobo.Shim.Input
import Nookobo.Text.FormEncoding

/-!
# Searches from the address bar

The Enter key turns a text that is not an address into a search: the text goes into the `q`
parameter of the target, spaces as `+` and all other bytes as they are. `search_reaches_engine`
says which texts the search engine gets back when it decodes the parameter: those without a byte
that means something in a form value. The keyboard's symbol layout offers `+`, `&`, `#` and `%`.
-/

namespace Nookobo.Shim

open Nookobo.Text

/-- `while (*trimmed == ' ') trimmed++;` -/
def trimmed (url : List UInt8) : List UInt8 := url.dropWhile (· = 32)

/-- The Enter key takes the address for a search. -/
def isQuery (url : List UInt8) : Bool :=
  (trimmed url).contains 32 ||
    (strstr (ascii "://") (trimmed url)).isNone && !(trimmed url).contains 46

/-- `if (*s == ' ') *q++ = '+'; else *q++ = *s;` -/
def encodeByte (byte : UInt8) : UInt8 := if byte = 32 then 43 else byte

/-- No byte of the text means something in a form value. -/
structure FormSafe (text : List UInt8) : Prop where
  noHash : Form.hash ∉ text
  noAmpersand : Form.ampersand ∉ text
  noPlus : Form.plus ∉ text
  unescaped : Form.Unescaped text

instance (text : List UInt8) : Decidable (FormSafe text) :=
  decidable_of_iff (Form.hash ∉ text ∧ Form.ampersand ∉ text ∧ Form.plus ∉ text ∧
      Form.Unescaped text)
    ⟨fun ⟨hash, ampersand, plus, unescaped⟩ => ⟨hash, ampersand, plus, unescaped⟩,
      fun safe => ⟨safe.noHash, safe.noAmpersand, safe.noPlus, safe.unescaped⟩⟩

/-! ## The target -/

namespace State

variable (font : Font)

/-- Enter leaves the target in the address. -/
theorem pressEnter_url {state : State} (focused : state.urlFocused = true)
    (typed : state.url ≠ []) : (state.pressEnter font).url = enterTarget state.url := by
  have hidden : ∀ state : State, state.hideOsk.url = state.url := by
    intro state
    unfold hideOsk
    split <;> rfl
  have cleared : ∀ state : State, state.clearBrowserUrlBar.url = state.url :=
    fun state => view_clearBrowserUrlBar (fun _ _ _ => rfl) (fun _ _ _ => rfl) state
  have sent : ∀ (text : List UInt8) (state : State), (state.typeText text).url = state.url :=
    fun text state => view_typeText (fun _ _ _ => rfl) text state
  have injected : ∀ (state : State) (sym unicode : Nat),
      (state.oskInjectKey sym unicode).url = state.url := fun _ _ _ => rfl
  have clicked : ∀ (state : State) (x y : Int), (state.simulateClick x y).url = state.url :=
    fun _ _ _ => rfl
  have entered : (state.urlFocused && !state.url.isEmpty) = true := by
    simp [focused, typed]
  unfold pressEnter
  rw [hidden, injected]
  dsimp only
  rw [if_pos entered, sent, cleared, clicked]
  rfl

end State

/-- What Enter makes of the address. -/
theorem enterTarget_eq (url : List UInt8) :
    State.enterTarget url =
      if isQuery url then
        (ascii "https://lite.duckduckgo.com/lite/?q=" ++
          ((trimmed url).take 1022).map encodeByte).take 1023
      else (trimmed url).take 1023 := rfl

/-- A short text is not cut. -/
theorem enterTarget_of_query {url : List UInt8} (short : url.length ≤ 900)
    (query : isQuery url = true) :
    State.enterTarget url =
      ascii "https://lite.duckduckgo.com/lite/?q=" ++ (trimmed url).map encodeByte := by
  have bound : (trimmed url).length ≤ 900 :=
    Nat.le_trans (List.dropWhile_sublist _).length_le short
  have start : (ascii "https://lite.duckduckgo.com/lite/?q=").length = 36 := by decide
  have room : (ascii "https://lite.duckduckgo.com/lite/?q=" ++
      (trimmed url).map encodeByte).length ≤ 1023 := by
    rw [List.length_append, List.length_map, start]
    omega
  rw [enterTarget_eq, if_pos query, List.take_of_length_le (Nat.le_trans bound (by decide)),
    List.take_of_length_le room]

/-! ## What the engine decodes -/

/-- Replacing spaces makes and unmakes no escape. -/
theorem escaped_encodeByte (mark high low : UInt8) :
    Form.escaped (encodeByte mark) (encodeByte high) (encodeByte low) =
      Form.escaped mark high low := by
  have digit : ∀ byte, Form.hexValue (encodeByte byte) = Form.hexValue byte := by
    intro byte
    unfold encodeByte
    split
    · next isSpace => rw [isSpace]; rfl
    · rfl
  have sign : encodeByte mark = Form.percent ↔ mark = Form.percent := by
    unfold encodeByte
    split
    · next isSpace => rw [isSpace]; decide
    · exact Iff.rfl
  unfold Form.escaped
  rw [digit, digit]
  simp only [sign]

/-- The engine's value of `q`. -/
theorem parameter_enterTarget {url : List UInt8} (short : url.length ≤ 900)
    (query : isQuery url = true) :
    Form.parameter (ascii "q") (State.enterTarget url) =
      some (Form.decode (((trimmed url).map encodeByte).takeWhile fun byte =>
        byte ≠ Form.hash && byte ≠ Form.ampersand)) := by
  have parts : ascii "https://lite.duckduckgo.com/lite/?q=" =
      ascii "https://lite.duckduckgo.com/lite/" ++
        Form.questionMark :: (ascii "q" ++ [Form.equals]) := by decide
  have first := Form.parameter_of_first (ascii "https://lite.duckduckgo.com/lite/") (ascii "q")
    ((trimmed url).map encodeByte) (List.all_iff_forall_prop.mp (by decide))
    (List.all_iff_forall_prop.mp (by decide))
  rw [← first, enterTarget_of_query short query, parts]
  simp

/-- A byte means something to the decoder or stands for itself. -/
theorem plain_encodeByte_iff (byte : UInt8) :
    Form.plain (encodeByte byte) = byte ↔ byte ≠ Form.plus := by
  unfold encodeByte
  split
  · next isSpace =>
    rw [isSpace]
    decide
  · unfold Form.plain
    split
    · next isPlus =>
      rw [isPlus]
      decide
    · next notPlus => exact ⟨fun _ => notPlus, fun _ => rfl⟩

/-- No byte but the space is replaced, and only by the plus sign. -/
theorem encodeByte_eq_iff {mark : UInt8} (notSpace : mark ≠ 32) (notPlus : mark ≠ 43)
    (byte : UInt8) : encodeByte byte = mark ↔ byte = mark := by
  unfold encodeByte
  split
  · next isSpace =>
    rw [isSpace]
    exact ⟨fun same => absurd same.symm notPlus, fun same => absurd same.symm notSpace⟩
  · exact Iff.rfl

/-- Nothing of the text is cut off at an ampersand or a hash, when there is none. -/
theorem takeWhile_map_eq_self_iff (text : List UInt8) :
    ((text.map encodeByte).takeWhile fun byte =>
        byte ≠ Form.hash && byte ≠ Form.ampersand) = text.map encodeByte ↔
      Form.hash ∉ text ∧ Form.ampersand ∉ text := by
  rw [List.takeWhile_eq_self_iff]
  simp only [List.mem_map, forall_exists_index, and_imp, forall_apply_eq_imp_iff₂,
    Bool.and_eq_true, decide_eq_true_eq, ne_eq,
    encodeByte_eq_iff (show Form.hash ≠ 32 by decide) (show Form.hash ≠ 43 by decide),
    encodeByte_eq_iff (show Form.ampersand ≠ 32 by decide) (show Form.ampersand ≠ 43 by decide)]
  exact ⟨fun each => ⟨fun member => (each _ member).1 rfl, fun member => (each _ member).2 rfl⟩,
    fun none byte member =>
      ⟨fun same => none.1 (same ▸ member), fun same => none.2 (same ▸ member)⟩⟩

/-- A text comes back as it was exactly when no byte of it means something. -/
theorem decode_map_encodeByte_iff (text : List UInt8) :
    Form.decode ((text.map encodeByte).takeWhile fun byte =>
        byte ≠ Form.hash && byte ≠ Form.ampersand) = text ↔ FormSafe text := by
  have uncut := takeWhile_map_eq_self_iff text
  have unescaped := Form.unescaped_map escaped_encodeByte text
  have plain : (text.map encodeByte).map Form.plain = text ↔ Form.plus ∉ text := by
    conv_lhs => rhs; rw [← List.map_id text]
    rw [List.map_map, List.map_inj_left]
    simp only [Function.comp_apply, id, plain_encodeByte_iff]
    exact ⟨fun each member => each _ member rfl, fun none byte member same =>
      none (same ▸ member)⟩
  constructor
  · intro back
    -- nothing may be cut off and no escape be decoded, or too few bytes come back
    have cut : List.Sublist ((text.map encodeByte).takeWhile fun byte =>
        byte ≠ Form.hash && byte ≠ Form.ampersand) (text.map encodeByte) :=
      List.takeWhile_sublist _
    obtain ⟨fewer, exact⟩ := Form.length_decode ((text.map encodeByte).takeWhile fun byte =>
      byte ≠ Form.hash && byte ≠ Form.ampersand)
    have most := cut.length_le
    rw [List.length_map] at most
    rw [back] at fewer exact
    have whole := cut.eq_of_length (by rw [List.length_map]; omega)
    obtain ⟨noHash, noAmpersand⟩ := uncut.mp whole
    rw [whole, List.length_map] at exact
    have free := exact.mp rfl
    rw [whole, Form.decode_eq_map free] at back
    exact ⟨noHash, noAmpersand, plain.mp back, unescaped.mp free⟩
  · intro safe
    rw [uncut.mpr ⟨safe.noHash, safe.noAmpersand⟩,
      Form.decode_eq_map (unescaped.mpr safe.unescaped)]
    exact plain.mpr safe.noPlus

/-- A search of at most 900 bytes entered on the keyboard reaches the engine unchanged exactly when
it contains no hash, no ampersand, no plus sign and no percent sign with two hexadecimal digits. -/
theorem search_reaches_engine (font : Font) (state : State) (focused : state.urlFocused = true)
    (typed : state.url ≠ []) (short : state.url.length ≤ 900)
    (query : isQuery state.url = true) :
    Form.parameter (ascii "q") (state.pressEnter font).url = some (trimmed state.url) ↔
      FormSafe (trimmed state.url) := by
  rw [State.pressEnter_url font focused typed, parameter_enterTarget short query,
    Option.some_inj]
  exact decode_map_encodeByte_iff (trimmed state.url)

/-- A search of two words. -/
theorem search_reaches_engine_two_words :
    Form.parameter (ascii "q")
        (State.pressEnter inklessFont { url := ascii " 100% cotton" }).url =
      some (ascii "100% cotton") :=
  (search_reaches_engine inklessFont { url := ascii " 100% cotton" } rfl (by decide) (by decide)
    (by decide)).mpr (by decide)

/-- The plus signs of `c++` come back as spaces. -/
theorem search_loses_plus :
    isQuery (ascii "c++") = true ∧
      Form.parameter (ascii "q") (State.enterTarget (ascii "c++")) = some (ascii "c  ") ∧
      Form.parameter (ascii "q") (State.enterTarget (ascii "c++")) ≠
        some (trimmed (ascii "c++")) := by
  decide +kernel

end Nookobo.Shim
