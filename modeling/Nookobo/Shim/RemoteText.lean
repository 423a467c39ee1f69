import Nookobo.Shim.UrlEditing
import Nookobo.Text.Utf8Walk

/-!
# Remote text

A `TEXT:` command is decoded byte by byte and typed as keys. For the UTF-8 bytes of a text of
characters below U+10000 the keys carry the characters of the text, one pair of events each and in
order. The keyboard's own encoder, for the characters it appends to the address, agrees with the
same decoder; only NUL is beyond it, as it is for any C string.
-/

namespace Nookobo.Shim

open Nookobo.Text

/-- A key pressed and released. -/
def keyPair (key : Keysym) : List Event := [.keyDown key, .keyUp key]

/-- The key that `osk_inject_key` reports for a code point of a text. -/
def typedKey (codePoint : Nat) : Keysym :=
  let sym := if codePoint < 128 then State.toLower codePoint else codePoint
  ⟨sym.toUInt8, sym, codePoint.toUInt16⟩

namespace State

variable (font : Font)

/-- Code points that are no line breaks are typed one by one. -/
theorem events_typeText {text : List UInt8}
    (oneLine : ∀ codePoint ∈ codePoints text, codePoint ≠ 10 ∧ codePoint ≠ 13) (state : State) :
    (state.typeText text).events =
      state.events ++ ((codePoints text).map typedKey).flatMap keyPair := by
  unfold typeText
  generalize codePoints text = points at oneLine ⊢
  induction points generalizing state with
  | nil => exact (List.append_nil _).symm
  | cons codePoint rest ih =>
      rw [List.forall_mem_cons] at oneLine
      have typed : ¬ (codePoint = 10 ∨ codePoint = 13) := not_or.mpr oneLine.1
      rw [List.foldl_cons, ih _ oneLine.2, if_neg typed, List.map_cons, List.flatMap_cons,
        ← List.append_assoc]
      rfl

/-- What is typed does not depend on whether the text also fits into the address. -/
theorem events_handleText {payload : List UInt8}
    (oneLine : ∀ codePoint ∈ codePoints payload, codePoint ≠ 10 ∧ codePoint ≠ 13)
    (state : State) :
    (state.handleText font payload).events =
      state.events ++ ((codePoints payload).map typedKey).flatMap keyPair := by
  have shown : ∀ state : State, (state.showUrl font).events = state.events := fun _ => rfl
  unfold handleText
  rw [events_typeText oneLine]
  split
  · rw [shown]
  · rfl

end State

/-- A line with `TEXT:` is the command with the rest as its text. -/
theorem fifoCommand_text (payload : List UInt8) :
    fifoCommand (ascii "TEXT:" ++ payload) = some (.text payload) := rfl

/-- The code points below U+0800, NUL apart, come back from the bytes of the keyboard's encoder. -/
theorem utf8Next_charBytes {codePoint : Nat} (positive : 0 < codePoint)
    (small : codePoint < 0x800) :
    utf8Next (State.charBytes codePoint) = some (codePoint, []) := by
  have valid : codePoint.isValidChar := .inl (by omega)
  have value : (Char.ofNat codePoint).toNat = codePoint := by
    unfold Char.ofNat
    rw [dif_pos valid]
    rfl
  have basic : 0 < (Char.ofNat codePoint).toNat ∧ (Char.ofNat codePoint).toNat < 0x10000 := by
    rw [value]
    omega
  have decoded := utf8Next_encoded basic []
  rw [charBytes_eq small, encoded_singleton, ← List.append_nil (String.utf8EncodeChar _), decoded,
    value]

/-- A text of characters from U+0001 to U+FFFF other than line breaks is typed as one key for each
character, in order and with its code point; and the bytes the keyboard appends for a code point
from 1 to U+07FF are decoded to it. -/
theorem remote_text_typed :
    (∀ (font : Font) (state : State) (text : List Char),
      (∀ char ∈ text, 0 < char.toNat ∧ char.toNat < 0x10000 ∧ char ≠ '\n' ∧ char ≠ '\r') →
      ∃ keys : List Keysym, keys.map (·.unicode.toNat) = text.map Char.toNat ∧
        (state.handleFifoCommand font (ascii "TEXT:" ++ encoded text)).events =
          state.events ++ keys.flatMap keyPair) ∧
    ∀ codePoint, 0 < codePoint → codePoint < 0x800 →
      utf8Next (State.charBytes codePoint) = some (codePoint, []) := by
  refine ⟨?_, fun codePoint positive small => utf8Next_charBytes positive small⟩
  intro font state text plain
  have points : codePoints (encoded text) = text.map Char.toNat :=
    codePoints_encoded fun char member => ⟨(plain char member).1, (plain char member).2.1⟩
  have oneLine : ∀ codePoint ∈ codePoints (encoded text), codePoint ≠ 10 ∧ codePoint ≠ 13 := by
    rw [points]
    intro codePoint member
    obtain ⟨char, inText, rfl⟩ := List.mem_map.mp member
    obtain ⟨_, _, notFeed, notReturn⟩ := plain char inText
    exact ⟨fun same => notFeed (Char.toNat_inj.mp same),
      fun same => notReturn (Char.toNat_inj.mp same)⟩
  refine ⟨(codePoints (encoded text)).map typedKey, ?_, ?_⟩
  · rw [points, List.map_map, List.map_map]
    apply List.map_congr_left
    intro char member
    exact UInt16.toNat_ofNat_of_lt' (plain char member).2.1
  · unfold State.handleFifoCommand
    rw [fifoCommand_text]
    exact State.events_handleText font oneLine state

/-- `ёж` sent from the phone, and the letter `ж` on the keyboard. -/
theorem remote_text_typed_hedgehog :
    (∃ keys : List Keysym, keys.map (·.unicode.toNat) = ['ё', 'ж'].map Char.toNat ∧
        (State.handleFifoCommand inklessFont (ascii "TEXT:" ++ encoded ['ё', 'ж']) {}).events =
          [] ++ keys.flatMap keyPair) ∧
      utf8Next (State.charBytes 0x436) = some (0x436, []) :=
  ⟨remote_text_typed.1 inklessFont {} ['ё', 'ж'] (List.all_iff_forall_prop.mp (by decide)),
    remote_text_typed.2 0x436 (by decide) (by decide)⟩

/-- For NUL the keyboard's encoder gives an empty string, in which nothing is found. -/
theorem charBytes_nul :
    cString (State.charBytes 0) = [] ∧ utf8Next (State.charBytes 0) ≠ some (0, []) := by
  decide

end Nookobo.Shim
