import Nookobo.Shim.Input
import Nookobo.Text.Encoding
import Nookobo.Text.Utf8Walk

/-!
# The loops that walk through a string

`utf8_string_len`, `fb_draw_utf8_string` and the two typing commands of the FIFO
walk through a C string with `utf8_next` and differ in the body of the loop only.
The strings they get are cut at bytes: by Backspace, by `snprintf`, by the reads
from the FIFO and, in the preview of the address, at both ends.
`utf8_loops_inside` says for which strings they stay inside.
-/

namespace Nookobo.Shim

open Nookobo.Semantics Nookobo.Text

/-! ## The bodies -/

/-- `utf8_string_len`. -/
def countBody (len _codePoint : Nat) : Nat := len + 1

/-- `fb_draw_utf8_string`: what is drawn and `cx`. -/
def drawBody (font : Font) (y : Int) (scale : Nat) (fg bg : UInt16)
    (drawn : List (Layer UInt16) × Int) (codePoint : Nat) : List (Layer UInt16) × Int :=
  (drawn.1 ++ [fbDrawUtf8Char font drawn.2 y codePoint scale fg bg], drawn.2 + 8 * scale)

/-- `TEXT:` and `URL:` in `handle_fifo_command`. -/
def typeBody (state : State) (codePoint : Nat) : State :=
  if codePoint = 10 ∨ codePoint = 13 then state
  else
    state.oskInjectKey (if codePoint < 128 then State.toLower codePoint else codePoint) codePoint

/-- The counting loop adds the number of characters. -/
theorem foldl_countBody (points : List Nat) (len : Nat) :
    points.foldl countBody len = len + points.length := by
  induction points generalizing len with
  | nil => rfl
  | cons point rest ih =>
      rw [List.foldl_cons, ih, List.length_cons, countBody]
      omega

/-- The drawing loop draws the characters side by side. -/
theorem foldl_drawBody (font : Font) (y : Int) (scale : Nat) (fg bg : UInt16)
    (points : List Nat) (drawn : List (Layer UInt16)) (x : Int) :
    (points.foldl (drawBody font y scale fg bg) (drawn, x)).1 =
      drawn ++ points.mapIdx fun index codePoint =>
        fbDrawUtf8Char font (x + 8 * scale * index) y codePoint scale fg bg := by
  induction points generalizing drawn x with
  | nil => exact (List.append_nil _).symm
  | cons point rest ih =>
      have here : x + 8 * (scale : Int) * (0 : Nat) = x := by
        rw [Int.natCast_zero, Int.mul_zero, Int.add_zero]
      have later : ∀ index : Nat,
          x + 8 * (scale : Int) + 8 * scale * index = x + 8 * scale * (index + 1 : Nat) := by
        intro index
        rw [Int.natCast_add, Int.mul_add, Int.natCast_one, Int.mul_one, Int.add_assoc,
          Int.add_comm (8 * (scale : Int))]
      rw [List.foldl_cons, List.mapIdx_cons, here]
      simp only [← later]
      change (rest.foldl (drawBody font y scale fg bg)
        (drawn ++ [fbDrawUtf8Char font x y point scale fg bg], x + 8 * scale)).1 = _
      rw [ih, List.append_assoc, List.singleton_append]

/-- Over a string that ends whole the loops compute what the model's functions do, whatever lies
behind its NUL. -/
theorem loops_of_endsWhole {text : List UInt8} (nulFree : ∀ byte ∈ text, byte ≠ 0)
    (whole : EndsWhole 0 text) (beyond : Nat → UInt8) (font : Font) (x y : Int) (scale : Nat)
    (fg bg : UInt16) (state : State) :
    (Walk.run (stored text beyond) countBody (text.length + 1) { acc := 0 }).acc =
        (codePoints text).length ∧
      .stack (Walk.run (stored text beyond) (drawBody font y scale fg bg) (text.length + 1)
        { acc := ([], x) }).acc.1 = fbDrawUtf8String font x y text scale fg bg ∧
      (Walk.run (stored text beyond) typeBody (text.length + 1) { acc := state }).acc =
        state.typeText text := by
  refine ⟨?_, ?_, ?_⟩
  · rw [((inside_iff nulFree beyond countBody 0).mpr whole).acc nulFree, foldl_countBody,
      Nat.zero_add]
  · rw [((inside_iff nulFree beyond (drawBody font y scale fg bg) ([], x)).mpr whole).acc nulFree,
      foldl_drawBody]
    rfl
  · rw [((inside_iff nulFree beyond typeBody state).mpr whole).acc nulFree]
    rfl

/-! ## Staying inside -/

/-- `fb_draw_utf8_string` stays inside. -/
def DrawInside (text : List UInt8) (beyond : Nat → UInt8) : Prop :=
  ∀ (font : Font) (x y : Int) (scale : Nat) (fg bg : UInt16),
    Inside text beyond (drawBody font y scale fg bg) ([], x)

/-- All the loops do. -/
def LoopsInside (text : List UInt8) (beyond : Nat → UInt8) : Prop :=
  Inside text beyond countBody 0 ∧ DrawInside text beyond ∧
    ∀ state : State, Inside text beyond typeBody state

/-- The loop of the drawing stays inside exactly when the text ends whole. -/
theorem drawInside_iff {text : List UInt8} (nulFree : ∀ byte ∈ text, byte ≠ 0)
    (beyond : Nat → UInt8) : DrawInside text beyond ↔ EndsWhole 0 text := by
  constructor
  · intro inside
    exact (inside_iff nulFree beyond _ _).mp
      (inside ⟨fun _ _ => 0, fun _ _ => 0⟩ 0 0 1 colorBlack colorWhite)
  · intro whole font x y scale fg bg
    exact (inside_iff nulFree beyond _ _).mpr whole

/-- All loops stay inside exactly when the text ends whole. -/
theorem loopsInside_iff {text : List UInt8} (nulFree : ∀ byte ∈ text, byte ≠ 0)
    (beyond : Nat → UInt8) : LoopsInside text beyond ↔ EndsWhole 0 text := by
  constructor
  · exact fun inside => (drawInside_iff nulFree beyond).mp inside.2.1
  · intro whole
    refine ⟨(inside_iff nulFree beyond _ _).mpr whole, (drawInside_iff nulFree beyond).mpr whole,
      fun state => ?_⟩
    exact (inside_iff nulFree beyond _ _).mpr whole

/-- The loops stay inside valid UTF-8. -/
theorem loopsInside_encoded {text : List Char} (nulFree : ∀ byte ∈ encoded text, byte ≠ 0)
    (beyond : Nat → UInt8) : LoopsInside (encoded text) beyond :=
  (loopsInside_iff nulFree beyond).mpr (endsWhole_encoded text)

/-! ## The preview of the address -/

/-- The last 58 of the first 127 bytes. -/
def previewPiece (url : List UInt8) : List UInt8 :=
  (url.take 127).drop ((url.take 127).length - 58)

/-- With the focus, the preview shows the end of the address. -/
theorem previewText_focused (lang : Language) {url : List UInt8} (typed : url ≠ []) :
    previewText lang true url = previewPiece url := by
  have more : url.isEmpty = false := List.isEmpty_eq_false_iff.mpr typed
  unfold previewText previewPiece
  rw [if_neg (by decide), more, if_neg (by decide)]
  dsimp only
  split
  · rfl
  · next short =>
    have none : (url.take 127).length - 58 = 0 := Nat.sub_eq_zero_of_le (Nat.not_lt.mp short)
    rw [none, List.drop_zero]

/-- The hints are texts of the source. -/
theorem previewText_hint (lang : Language) {focused : Bool} {url : List UInt8}
    (hint : focused = true → url = []) :
    (∀ byte ∈ previewText lang focused url, byte ≠ 0) ∧
      EndsWhole 0 (previewText lang focused url) := by
  cases focused with
  | true =>
      rw [hint rfl]
      cases lang <;> decide +kernel
  | false =>
      have unread : previewText lang false url = previewText lang false [] := rfl
      rw [unread]
      cases lang <;> decide +kernel

/-- The piece that is shown has no NUL. -/
theorem nulFree_previewPiece {url : List UInt8} (nulFree : ∀ byte ∈ url, byte ≠ 0) :
    ∀ byte ∈ previewPiece url, byte ≠ 0 := by
  intro byte member
  exact nulFree byte (List.mem_of_mem_take (List.mem_of_mem_drop member))

/-- The preview is a hint, or the piece of the address. -/
theorem drawInside_previewText_iff {url : List UInt8} (nulFree : ∀ byte ∈ url, byte ≠ 0)
    (beyond : Nat → UInt8) (lang : Language) (focused : Bool) :
    DrawInside (previewText lang focused url) beyond ↔
      (focused = true → EndsWhole 0 (previewPiece url)) := by
  by_cases hint : focused = true → url = []
  · obtain ⟨hintNulFree, hintWhole⟩ := previewText_hint lang hint
    rw [drawInside_iff hintNulFree]
    refine iff_of_true hintWhole fun focus => ?_
    rw [hint focus]
    rfl
  · obtain ⟨focus, typed⟩ := Classical.not_imp.mp hint
    rw [focus, previewText_focused lang typed, drawInside_iff (nulFree_previewPiece nulFree)]
    exact ⟨fun whole _ => whole, fun whole => whole rfl⟩

/-- The loops stay inside a string exactly when it does not end inside a character; and the
drawing of the preview stays inside what is drawn exactly when, with the address bar focused, the
last 58 of the first 127 bytes of the address do not. -/
theorem utf8_loops_inside (text : List UInt8) (nulFree : ∀ byte ∈ text, byte ≠ 0)
    (beyond : Nat → UInt8) (lang : Language) (focused : Bool) :
    (LoopsInside text beyond ↔ EndsWhole 0 text) ∧
      (DrawInside (previewText lang focused text) beyond ↔
        (focused = true → EndsWhole 0 (previewPiece text))) :=
  ⟨loopsInside_iff nulFree beyond, drawInside_previewText_iff nulFree beyond lang focused⟩

/-- A letter of two bytes and one of one. -/
theorem utf8_loops_inside_two_letters :
    LoopsInside (encoded ['й', 'a']) (fun _ => 0xFF) ∧
      DrawInside (previewText .russian true (encoded ['й', 'a'])) fun _ => 0xFF := by
  have both := utf8_loops_inside (encoded ['й', 'a']) (by decide +kernel) (fun _ => 0xFF)
    .russian true
  exact ⟨both.1.mpr (by decide +kernel), both.2.mpr fun _ => by decide +kernel⟩

/-- 126 letters of one byte and one of two: the 127th byte is the first half of it, the preview
shows it last, and the loop that draws it comes to point behind the NUL. -/
theorem preview_reads_beyond_nul :
    (∀ byte ∈ encoded (List.replicate 126 'a' ++ ['й']), byte ≠ 0) ∧
      ¬ DrawInside
        (previewText .english true (encoded (List.replicate 126 'a' ++ ['й']))) fun _ => 0 := by
  refine ⟨by decide +kernel, fun inside => ?_⟩
  have within := (inside ⟨fun _ _ => 0, fun _ _ => 0⟩ 216 1282 2 colorBlack colorWhite).1 58
  exact absurd (within.2.1 59 (by decide +kernel)) (by decide +kernel)

end Nookobo.Shim
