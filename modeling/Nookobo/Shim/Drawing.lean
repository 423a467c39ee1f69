import Nookobo.Semantics.Pane
import Nookobo.Text.Utf8

/-!
# Drawing on the panel

The drawing routines of the shim only ever cover pixels, whatever was there, so
each is modelled as the `Layer` it leaves behind. All of them clip to the visible
panel of 1404 by 1872 pixels; the four columns that pad a row of the framebuffer
to its stride are out of their reach.

The bitmap fonts are a parameter: nothing here depends on the shapes.
-/

namespace Nookobo.Shim

open Nookobo.Semantics Nookobo.Text

/-- `PANEL_WIDTH`, `PANEL_HEIGHT` and `PANEL_STRIDE`. -/
def panelWidth : Nat := 1404
def panelHeight : Nat := 1872
def panelStride : Nat := 1408

/-- `OSK_Y`, `OSK_H` and `OSK_W`. -/
def oskY : Nat := 1272
def oskH : Nat := 600
def oskW : Nat := 1404

/-- The colours, by their names in the source. -/
def colorWhite : UInt16 := 0xFFFF
def colorBlack : UInt16 := 0x0000
def colorBg : UInt16 := 0xEF7D
def colorKeyBg : UInt16 := 0xFFFF
def colorSpecialBg : UInt16 := 0xDEFB
def colorBorder : UInt16 := 0x0000
def colorPressedBg : UInt16 := 0x0000
def colorPressedFg : UInt16 := 0xFFFF

/-- `font8x16` and `font8x16_cyrillic`: sixteen bytes for each character. -/
structure Font where
  latin : Nat → Nat → UInt8
  cyrillic : Nat → Nat → UInt8

/-- A font without ink. -/
def inklessFont : Font := ⟨fun _ _ => 0, fun _ _ => 0⟩

/-- `get_cyrillic_font_index`. -/
def getCyrillicFontIndex (unicode : Nat) : Option Nat :=
  if 0x0410 ≤ unicode ∧ unicode ≤ 0x042F then some (unicode - 0x0410)
  else if 0x0430 ≤ unicode ∧ unicode ≤ 0x044F then some (unicode - 0x0430 + 32)
  else if unicode = 0x0401 then some 64
  else if unicode = 0x0451 then some 65
  else none

/-- The bitmap of a character, the question mark when it has none. -/
def Font.glyph (font : Font) (codePoint : Nat) : Nat → UInt8 :=
  if 32 ≤ codePoint ∧ codePoint ≤ 126 then font.latin (codePoint - 32)
  else
    match getCyrillicFontIndex codePoint with
    | some index => font.cyrillic index
    | none => font.latin (63 - 32)

/-- The pixel lies in the rectangle and on the panel. -/
def inRect (x y w h : Int) (row column : Nat) : Bool :=
  decide (y ≤ row ∧ (row : Int) < y + h ∧ row < panelHeight) &&
    decide (x ≤ column ∧ (column : Int) < x + w ∧ column < panelWidth)

/-- `fb_draw_rect`. -/
def fbDrawRect (x y w h : Int) (color : UInt16) : Layer UInt16 := fun row column =>
  if inRect x y w h row column then some color else none

/-- `fb_draw_rect_outline`. -/
def fbDrawRectOutline (x y w h thickness : Int) (color : UInt16) : Layer UInt16 :=
  .stack
    [fbDrawRect x y w thickness color, fbDrawRect x (y + h - thickness) w thickness color,
      fbDrawRect x y thickness h color, fbDrawRect (x + w - thickness) y thickness h color]

/-- `fb_draw_utf8_char`: a block of `scale` by `scale` pixels for each bit. At scale
1 a black background is left out. -/
def fbDrawUtf8Char (font : Font) (x y : Int) (codePoint scale : Nat) (fg bg : UInt16) :
    Layer UInt16 := fun row column =>
  if inRect x y (8 * scale) (16 * scale) row column then
    let line := font.glyph codePoint ((row - y).toNat / scale)
    let bit := 7 - (column - x).toNat / scale
    let color := if line.toNat.testBit bit then fg else bg
    if scale = 1 then if color != bg || bg != 0 then some color else none else some color
  else none

/-- `fb_draw_utf8_string`. -/
def fbDrawUtf8String (font : Font) (x y : Int) (text : List UInt8) (scale : Nat)
    (fg bg : UInt16) : Layer UInt16 :=
  .stack ((codePoints text).mapIdx fun index codePoint =>
    fbDrawUtf8Char font (x + 8 * scale * index) y codePoint scale fg bg)

/-- `fb_draw_utf8_string_centered`. -/
def fbDrawUtf8StringCentered (font : Font) (x y w h : Int) (text : List UInt8) (scale : Nat)
    (fg bg : UInt16) : Layer UInt16 :=
  let stringWidth : Int := (codePoints text).length * 8 * scale
  let stringHeight : Int := 16 * scale
  fbDrawUtf8String font (x + (w - stringWidth).tdiv 2) (y + (h - stringHeight).tdiv 2) text scale
    fg bg

/-- `draw_url_bar_overlay`: the address, cut to 64 bytes, in a box at the top. -/
def drawUrlBarOverlay (font : Font) (url : List UInt8) : Layer UInt16 :=
  let display := (ascii "URL: " ++ url).take 79
  let display := if display.length > 64 then display.take 61 ++ ascii "..." else display
  .stack
    [fbDrawRect 145 6 1175 58 colorWhite, fbDrawRectOutline 145 6 1175 58 2 colorBlack,
      fbDrawUtf8String font 160 19 display 2 colorBlack colorWhite]

/-! ## Drawing inside a pane -/

section Pane

variable {pane : Pane}

/-- What lies in a rectangle held by a pane lies in the pane. -/
theorem contains_of_inRect {x y w h : Int} (box : pane.Holds x y w h) {row column : Nat}
    (inside : inRect x y w h row column = true) : pane.contains row column = true := by
  obtain ⟨⟨left, right⟩, top, bottom⟩ := box
  simp only [inRect, Pane.contains, Bool.and_eq_true, decide_eq_true_eq] at inside ⊢
  omega

/-- Outside a pane is outside every rectangle it holds. -/
theorem not_inRect_of_outside {x y w h : Int} (box : pane.Holds x y w h) {row column : Nat}
    (outside : pane.contains row column = false) : ¬ inRect x y w h row column = true := by
  intro inside
  rw [contains_of_inRect box inside] at outside
  cases outside

/-- A rectangle held by a pane is drawn inside it. -/
theorem within_fbDrawRect {x y w h : Int} (box : pane.Holds x y w h) (color : UInt16) :
    (fbDrawRect x y w h color).Within pane.contains := by
  intro row column outside
  exact if_neg (not_inRect_of_outside box outside)

/-- An outline held by a pane is drawn inside it. -/
theorem within_fbDrawRectOutline {x y w h thickness : Int} (box : pane.Holds x y w h)
    (wide : thickness ≤ w) (high : thickness ≤ h) (color : UInt16) :
    (fbDrawRectOutline x y w h thickness color).Within pane.contains := by
  obtain ⟨⟨left, right⟩, top, bottom⟩ := box
  apply Layer.Within.stack
  intro layer member
  simp only [List.mem_cons, List.not_mem_nil, or_false] at member
  rcases member with rfl | rfl | rfl | rfl
  · exact within_fbDrawRect ⟨⟨left, right⟩, top, by omega⟩ color
  · exact within_fbDrawRect ⟨⟨left, right⟩, by omega, by omega⟩ color
  · exact within_fbDrawRect ⟨⟨left, by omega⟩, top, bottom⟩ color
  · exact within_fbDrawRect ⟨⟨by omega, by omega⟩, top, bottom⟩ color

/-- A character held by a pane is drawn inside it. -/
theorem within_fbDrawUtf8Char (font : Font) {x y : Int} {codePoint scale : Nat}
    (box : pane.Holds x y (8 * scale) (16 * scale)) (fg bg : UInt16) :
    (fbDrawUtf8Char font x y codePoint scale fg bg).Within pane.contains := by
  intro row column outside
  exact if_neg (not_inRect_of_outside box outside)

end Pane

/-! ## The address bar stays at the top -/

/-- A rectangle above a row is drawn above it. -/
theorem below_fbDrawRect {x y w h : Int} {limit : Nat} (above : y + h ≤ limit)
    (color : UInt16) : (fbDrawRect x y w h color).Below limit := by
  intro row column beyond
  unfold fbDrawRect
  rw [if_neg]
  simp only [inRect, Bool.and_eq_true, decide_eq_true_eq, not_and]
  intro inside
  omega

/-- An outline above a row is drawn above it. -/
theorem below_fbDrawRectOutline {x y w h thickness : Int} {limit : Nat}
    (above : y + h ≤ limit) (fits : thickness ≤ h) (color : UInt16) :
    (fbDrawRectOutline x y w h thickness color).Below limit := by
  apply Layer.Below.stack
  intro layer member
  simp only [List.mem_cons, List.not_mem_nil, or_false] at member
  rcases member with rfl | rfl | rfl | rfl
  · exact below_fbDrawRect (by omega) color
  · exact below_fbDrawRect (by omega) color
  · exact below_fbDrawRect above color
  · exact below_fbDrawRect above color

/-- A character above a row is drawn above it. -/
theorem below_fbDrawUtf8Char (font : Font) {x y : Int} {codePoint scale limit : Nat}
    (above : y + 16 * scale ≤ limit) (fg bg : UInt16) :
    (fbDrawUtf8Char font x y codePoint scale fg bg).Below limit := by
  intro row column beyond
  unfold fbDrawUtf8Char
  rw [if_neg]
  simp only [inRect, Bool.and_eq_true, decide_eq_true_eq, not_and]
  intro inside
  omega

/-- A text above a row is drawn above it. -/
theorem below_fbDrawUtf8String (font : Font) {x y : Int} {scale limit : Nat}
    (above : y + 16 * scale ≤ limit) (text : List UInt8) (fg bg : UInt16) :
    (fbDrawUtf8String font x y text scale fg bg).Below limit := by
  apply Layer.Below.stack
  intro layer member
  obtain ⟨index, inRange, rfl⟩ := List.mem_mapIdx.mp member
  exact below_fbDrawUtf8Char font above fg bg

/-- The address bar is drawn above row 75, whatever the address. -/
theorem below_drawUrlBarOverlay (font : Font) (url : List UInt8) :
    (drawUrlBarOverlay font url).Below 75 := by
  apply Layer.Below.stack
  intro layer member
  simp only [List.mem_cons, List.not_mem_nil, or_false] at member
  rcases member with rfl | rfl | rfl
  · exact below_fbDrawRect (by decide) colorWhite
  · exact below_fbDrawRectOutline (by decide) (by decide) colorBlack
  · exact below_fbDrawUtf8String font (by decide) _ colorBlack colorWhite

end Nookobo.Shim
