import Mathlib.Tactic.Positivity
import Mathlib.Tactic.GCongr
import Mathlib.Tactic.Ring
import Nookobo.ActiveApp
import Nookobo.Shim.Drawing

/-!
# The app switcher: its dialog

What `app-switcher` draws: nine buttons, a section that shows what the music player is
doing, and a header with the state of the battery. The texts come from the outside at
run time, so how far they reach is part of the argument that the whole dialog, whatever
it shows, stays inside the rectangle that is saved before it is drawn.

The elementary drawing routines are those of the SDL shim under other names.
-/

namespace Nookobo.Switcher

open Nookobo.Semantics Nookobo.Text Nookobo.Shim

/-- `DLG_X`, `DLG_Y`, `DLG_W` and `DLG_H`. -/
def dlgX : Nat := 132
def dlgY : Nat := 200
def dlgW : Nat := 1140
def dlgH : Nat := 1470

/-- `COLOR_GRAY_LT` and `COLOR_GRAY_DK`. -/
def colorGrayLt : UInt16 := 0xDEFB
def colorGrayDk : UInt16 := 0x4208

/-- The pixel belongs to the dialog. -/
def inDialog (row column : Nat) : Bool :=
  decide (dlgY ≤ row ∧ row < dlgY + dlgH) && decide (dlgX ≤ column ∧ column < dlgX + dlgW)

/-! ## Elementary drawing -/

/-- `draw_rect`. -/
def drawRect (x y w h : Int) (color : UInt16) : Layer UInt16 := fbDrawRect x y w h color

/-- `draw_rect_outline`. -/
def drawRectOutline (x y w h thickness : Int) (color : UInt16) : Layer UInt16 :=
  fbDrawRectOutline x y w h thickness color

/-- `draw_char`: a character without a bitmap is drawn as a space. -/
def drawChar (font : Font) (x y : Int) (ch : UInt8) (scale : Nat) (fg bg : UInt16) :
    Layer UInt16 :=
  fbDrawUtf8Char font x y (if ch < 32 ∨ ch > 126 then 32 else ch.toNat) scale fg bg

/-- `draw_string`. -/
def drawString (font : Font) (x y : Int) (text : List UInt8) (scale : Nat) (fg bg : UInt16) :
    Layer UInt16 :=
  .stack (text.mapIdx fun index ch => drawChar font (x + 8 * scale * index) y ch scale fg bg)

/-- `draw_string_centered`. -/
def drawStringCentered (font : Font) (x y w h : Int) (text : List UInt8) (scale : Nat)
    (fg bg : UInt16) : Layer UInt16 :=
  let stringWidth : Int := text.length * 8 * scale
  let stringHeight : Int := 16 * scale
  drawString font (x + (w - stringWidth).tdiv 2) (y + (h - stringHeight).tdiv 2) text scale fg bg

/-! ## What the outside reports -/

/-- `strncpy(target, text, size - 1)` into a cleared buffer. -/
def bounded (size : Nat) (text : List UInt8) : List UInt8 := text.take (size - 1)

/-- What the dialog shows of the player. -/
structure MusicStatus where
  status : List UInt8 := ascii "STOPPED"
  track : List UInt8 := []
  shuffle : Bool := false
deriving DecidableEq

/-- `strrchr(t, '/')`: the part after the last slash, all of it without one. -/
def baseName (path : List UInt8) : List UInt8 := (path.reverse.takeWhile (· ≠ 47)).reverse

/-- One line of the status report. -/
def MusicStatus.readLine (music : MusicStatus) (buffer : List UInt8) : MusicStatus :=
  let line := (cString buffer).takeWhile fun byte => !isLineBreak byte
  if (ascii "STATUS:").isPrefixOf line then { music with status := bounded 32 (line.drop 7) }
  else if (ascii "TRACK:").isPrefixOf line then
    { music with track := bounded 256 (baseName (line.drop 6)) }
  else if (ascii "SHUFFLE:1").isPrefixOf line then { music with shuffle := true }
  else music

/-- `query_music_status`, given what `fgets` returned from the pipe; nothing when the pipe
could not be opened. -/
def queryMusicStatus (buffers : List (List UInt8)) : MusicStatus :=
  buffers.foldl MusicStatus.readLine {}

/-- `%d` for a number of at most three digits. -/
def decimal (number : Nat) : List UInt8 :=
  if number < 10 then [(48 + number).toUInt8]
  else if number < 100 then [(48 + number / 10).toUInt8, (48 + number % 10).toUInt8]
  else [(48 + number / 100).toUInt8, (48 + number / 10 % 10).toUInt8, (48 + number % 10).toUInt8]

/-- The tag for a charging state. -/
def batteryTag (status : List UInt8) : List UInt8 :=
  if status = ascii "Charging" then ascii "CHG"
  else if status = ascii "Discharging" then ascii "DIS"
  else if status = ascii "Full" then ascii "FULL"
  else if status = ascii "Not charging" then ascii "-"
  else ascii "?"

/-- `query_battery_status`, given the number in the capacity file and the contents of the
status file, where they could be read. -/
def queryBatteryStatus (capacity : Option Int) (status : Option (List UInt8)) : List UInt8 :=
  let cap := capacity.getD (-1)
  if cap < 0 ∨ cap > 100 then ascii "BAT n/a"
  else
    ascii "BAT " ++ decimal cap.toNat ++ ascii "% " ++
      batteryTag (AppFiles.firstLine (status.getD []))

/-! ## Buttons -/

/-- The buttons, by the enumeration of the source. -/
inductive ButtonId where
  | koreader
  | plato
  | netsurf
  | musicPrev
  | musicPlay
  | musicNext
  | musicShuffle
  | frontlight
  | close
deriving DecidableEq, Repr

/-- A button with its rectangle and its texts. -/
structure Button where
  id : ButtonId
  x : Int
  y : Int
  w : Int
  h : Int
  text : List UInt8
  subtext : List UInt8

/-- The two texts that follow the music player; `none` until it has been asked. -/
structure Labels where
  playing : Option Bool := none
  shuffling : Option Bool := none
deriving DecidableEq

/-- The text of the play button. -/
def Labels.playText (labels : Labels) : List UInt8 :=
  match labels.playing with
  | none => ascii "Play / Pause"
  | some true => ascii "Pause [||]"
  | some false => ascii "Play [>]"

/-- The text of the shuffle button. -/
def Labels.shuffleText (labels : Labels) : List UInt8 :=
  match labels.shuffling with
  | none => ascii "Shuffle"
  | some true => ascii "Shuf: ON"
  | some false => ascii "Shuf: OFF"

/-- An entry of the table `buttons`. -/
def button (labels : Labels) : ButtonId → Button
  | .koreader =>
      ⟨.koreader, 202, 360, 1000, 120, ascii "KOReader", ascii "PDF, EPUB, MOBI Document Viewer"⟩
  | .plato =>
      ⟨.plato, 202, 500, 1000, 120, ascii "Plato Reader", ascii "Fast Touch-Driven Rust Reader"⟩
  | .netsurf =>
      ⟨.netsurf, 202, 640, 1000, 120, ascii "NetSurf Web Browser", ascii "Lightweight Web Browsing"⟩
  | .musicPrev => ⟨.musicPrev, 202, 980, 230, 100, ascii "|<< Prev", []⟩
  | .musicPlay => ⟨.musicPlay, 452, 980, 270, 100, labels.playText, []⟩
  | .musicNext => ⟨.musicNext, 742, 980, 230, 100, ascii "Next >>|", []⟩
  | .musicShuffle => ⟨.musicShuffle, 992, 980, 210, 100, labels.shuffleText, []⟩
  | .frontlight =>
      ⟨.frontlight, 202, 1160, 1000, 110, ascii "Toggle Frontlight (Cool/Warm)",
        ascii "Switch Frontlight On / Off"⟩
  | .close =>
      ⟨.close, 202, 1290, 1000, 110, ascii "Close / Keep Reading",
        ascii "Resume current book or page"⟩

/-- The order of the table. -/
def buttonIds : List ButtonId :=
  [.koreader, .plato, .netsurf, .musicPrev, .musicPlay, .musicNext, .musicShuffle, .frontlight,
    .close]

/-- The button of an application. -/
def ButtonId.app : ButtonId → Option App
  | .koreader => some .koreader
  | .plato => some .plato
  | .netsurf => some .netsurf
  | _ => none

/-- The text of a button, marked when its application is the active one. -/
def buttonLabel (activeApp : List UInt8) (button : Button) : List UInt8 :=
  if button.id.app.map App.name = some activeApp then
    bounded 128 (button.text ++ ascii "  [Running]")
  else bounded 128 button.text

/-- `draw_button_widget`. -/
def drawButtonWidget (font : Font) (activeApp : List UInt8) (button : Button) (pressed : Bool) :
    Layer UInt16 :=
  let bg := if pressed then colorBlack else colorWhite
  let fg := if pressed then colorWhite else colorBlack
  let label := buttonLabel activeApp button
  .stack
    ([drawRect button.x button.y button.w button.h bg,
      drawRectOutline button.x button.y button.w button.h 4 colorBlack] ++
    if button.subtext ≠ [] then
      [drawStringCentered font button.x (button.y + 16) button.w 36 label 2 fg bg,
        drawStringCentered font button.x (button.y + 60) button.w 24 button.subtext 1 fg bg]
    else
      [drawStringCentered font button.x button.y button.w button.h label
        (if 90 ≤ button.h then 2 else 1) fg bg])

/-! ## Sections -/

/-- `%-8s` and the like. -/
def padded (width : Nat) (text : List UInt8) : List UInt8 :=
  text ++ List.replicate (width - text.length) 32

/-- The line with the track, at most 45 characters of it. -/
def trackText (music : MusicStatus) : List UInt8 :=
  bounded 256 (ascii "Track: " ++
    if music.track ≠ [] then music.track.take 45 else ascii "(No track loaded)")

/-- The line with status and shuffle. -/
def stateText (music : MusicStatus) : List UInt8 :=
  bounded 128 (ascii "Status: " ++ padded 8 music.status ++ ascii "  |  Shuffle: " ++
    padded 3 (if music.shuffle then ascii "ON" else ascii "OFF"))

/-- The button texts after the music section has been drawn. -/
def labelsFor (music : MusicStatus) : Labels where
  playing := some (decide (music.status = ascii "PLAYING"))
  shuffling := some music.shuffle

/-- `draw_music_section`. -/
def drawMusicSection (font : Font) (activeApp : List UInt8) (music : MusicStatus) : Layer UInt16 :=
  let labels := labelsFor music
  .stack
    [drawRect 202 800 1000 160 colorWhite,
      drawRectOutline 202 800 1000 160 3 colorGrayDk,
      drawRect 202 800 1000 36 colorGrayLt,
      drawString font 222 808 (ascii "BACKGROUND MUSIC PLAYER (3.5mm & BLUETOOTH)") 1 colorBlack
        colorGrayLt,
      drawString font 222 850 (trackText music) 2 colorBlack colorWhite,
      drawString font 222 898 (stateText music) 2 colorGrayDk colorWhite,
      drawButtonWidget font activeApp (button labels .musicPrev) false,
      drawButtonWidget font activeApp (button labels .musicPlay) false,
      drawButtonWidget font activeApp (button labels .musicNext) false,
      drawButtonWidget font activeApp (button labels .musicShuffle) false]

/-- `draw_dialog`. -/
def drawDialog (font : Font) (activeApp battery : List UInt8) (music : MusicStatus) :
    Layer UInt16 :=
  .stack
    [drawRect dlgX dlgY dlgW dlgH colorWhite,
      drawRectOutline dlgX dlgY dlgW dlgH 6 colorBlack,
      drawRect dlgX dlgY dlgW 90 colorBlack,
      drawStringCentered font dlgX dlgY dlgW 90 (ascii "NOOK APPLICATION SWITCHER") 2 colorWhite
        colorBlack,
      drawString font (dlgX + dlgW - battery.length * 16 - 24) (dlgY + 29) battery 2 colorWhite
        colorBlack,
      drawString font 202 315 (ascii "SELECT APPLICATION TO RUN:") 2 colorGrayDk colorWhite,
      drawButtonWidget font activeApp (button {} .koreader) false,
      drawButtonWidget font activeApp (button {} .plato) false,
      drawButtonWidget font activeApp (button {} .netsurf) false,
      drawMusicSection font activeApp music,
      drawButtonWidget font activeApp (button (labelsFor music) .frontlight) false,
      drawButtonWidget font activeApp (button (labelsFor music) .close) false]

/-! ## Everything stays in the dialog -/

/-- The rectangle lies in the dialog. -/
def InBox (x y w h : Int) : Prop :=
  (dlgX ≤ x ∧ x + w ≤ dlgX + dlgW) ∧ dlgY ≤ y ∧ y + h ≤ dlgY + dlgH

instance (x y w h : Int) : Decidable (InBox x y w h) := inferInstanceAs (Decidable (_ ∧ _))

/-- The dialog as a pane; `inDialog` and `InBox` speak of this one. -/
def dialogPane : Pane where
  left := dlgX
  top := dlgY
  width := dlgW
  height := dlgH

section Pane

variable {pane : Pane}

/-- A text stays in a pane that holds its characters. -/
theorem within_pane_drawString (font : Font) {x y : Int} {text : List UInt8} {scale : Nat}
    (box : pane.Holds x y (8 * scale * text.length) (16 * scale)) (fg bg : UInt16) :
    (drawString font x y text scale fg bg).Within pane.contains := by
  obtain ⟨⟨left, right⟩, top, bottom⟩ := box
  apply Layer.Within.stack
  intro layer member
  obtain ⟨index, inRange, rfl⟩ := List.mem_mapIdx.mp member
  apply within_fbDrawUtf8Char
  have before : (8 * scale * index + 8 * scale : Int) ≤ 8 * scale * text.length := by
    have places : (index : Int) + 1 ≤ text.length := by omega
    calc (8 * scale * index + 8 * scale : Int) = 8 * scale * (index + 1) := by ring
      _ ≤ 8 * scale * text.length := by gcongr
  have ahead : (0 : Int) ≤ 8 * scale * index := by positivity
  exact ⟨⟨by omega, by omega⟩, top, bottom⟩

/-- A centred text that is no wider and no higher than its box stays in it. -/
theorem within_pane_drawStringCentered (font : Font) {x y w h : Int} {text : List UInt8}
    {scale : Nat} (box : pane.Holds x y w h) (wide : text.length * 8 * scale ≤ w)
    (high : 16 * scale ≤ h) (fg bg : UInt16) :
    (drawStringCentered font x y w h text scale fg bg).Within pane.contains := by
  obtain ⟨⟨left, right⟩, top, bottom⟩ := box
  have same : (8 * scale * text.length : Int) = text.length * 8 * scale := by ring
  have across := Int.tdiv_eq_ediv_of_nonneg (b := 2) (Int.sub_nonneg.mpr wide)
  have down := Int.tdiv_eq_ediv_of_nonneg (b := 2) (Int.sub_nonneg.mpr high)
  apply within_pane_drawString
  rw [across, down, same]
  generalize (text.length * 8 * scale : Int) = stringWidth at *
  exact ⟨⟨by omega, by omega⟩, by omega, by omega⟩

end Pane

/-- A rectangle in the dialog stays in it. -/
theorem within_drawRect {x y w h : Int} (box : InBox x y w h) (color : UInt16) :
    (drawRect x y w h color).Within inDialog := by
  have inside : dialogPane.Holds x y w h := box
  exact within_fbDrawRect inside color

/-- An outline in the dialog stays in it, when it is not thicker than its rectangle. -/
theorem within_drawRectOutline {x y w h thickness : Int} (box : InBox x y w h)
    (wide : thickness ≤ w) (high : thickness ≤ h) (color : UInt16) :
    (drawRectOutline x y w h thickness color).Within inDialog := by
  have inside : dialogPane.Holds x y w h := box
  exact within_fbDrawRectOutline inside wide high color

/-- A text stays in the dialog when its characters do. -/
theorem within_drawString (font : Font) {x y : Int} {text : List UInt8} {scale : Nat}
    (box : InBox x y (8 * scale * text.length) (16 * scale)) (fg bg : UInt16) :
    (drawString font x y text scale fg bg).Within inDialog := by
  have inside : dialogPane.Holds x y (8 * scale * text.length) (16 * scale) := box
  exact within_pane_drawString font inside fg bg

/-- A centred text stays in the dialog when it fits its rectangle. -/
theorem within_drawStringCentered (font : Font) {x y w h : Int} {text : List UInt8} {scale : Nat}
    (box : InBox x y w h) (wide : text.length * 8 * scale ≤ w) (high : 16 * scale ≤ h)
    (fg bg : UInt16) : (drawStringCentered font x y w h text scale fg bg).Within inDialog := by
  have inside : dialogPane.Holds x y w h := box
  exact within_pane_drawStringCentered font inside wide high fg bg

/-! ### Buttons -/

/-- The length of the button's text, with the mark of the active application. -/
def Button.longest (button : Button) : Nat :=
  button.text.length + if button.id.app.isSome then 11 else 0

/-- The button lies in the dialog and has room for its texts. -/
def Button.Fits (button : Button) : Prop :=
  InBox button.x button.y button.w button.h ∧ (button.longest * 16 ≤ button.w ∧
    button.subtext.length * 8 ≤ button.w) ∧ (90 : Int) ≤ button.w ∧ (90 : Int) ≤ button.h

instance (button : Button) : Decidable button.Fits := inferInstanceAs (Decidable (_ ∧ _))

/-- The texts of the buttons fit before the player has been asked. -/
theorem button_fits_default (id : ButtonId) : (button {} id).Fits := by
  cases id <;> decide +kernel

/-- Only two buttons change their text, and every text they take fits. -/
theorem button_fits (labels : Labels) (id : ButtonId) : (button labels id).Fits := by
  cases id with
  | musicPlay =>
      have same : button labels .musicPlay = button { playing := labels.playing } .musicPlay := rfl
      rw [same]
      rcases labels.playing with _ | _ | _ <;> decide +kernel
  | musicShuffle =>
      have same : button labels .musicShuffle =
          button { shuffling := labels.shuffling } .musicShuffle := rfl
      rw [same]
      rcases labels.shuffling with _ | _ | _ <;> decide +kernel
  | koreader => exact button_fits_default .koreader
  | plato => exact button_fits_default .plato
  | netsurf => exact button_fits_default .netsurf
  | musicPrev => exact button_fits_default .musicPrev
  | musicNext => exact button_fits_default .musicNext
  | frontlight => exact button_fits_default .frontlight
  | close => exact button_fits_default .close

/-- No label is longer than the longest its button can have. -/
theorem length_buttonLabel (activeApp : List UInt8) (button : Button) :
    (buttonLabel activeApp button).length ≤ button.longest := by
  unfold buttonLabel Button.longest
  cases app : button.id.app with
  | none =>
      simp only [Option.map_none, reduceCtorEq, if_false, bounded, List.length_take]
      omega
  | some app =>
      have mark : (ascii "  [Running]").length = 11 := rfl
      split <;>
        simp only [bounded, List.length_take, List.length_append, mark, Option.isSome_some,
          if_true] <;>
        omega

/-- A button stays in every pane that has room for it. -/
theorem within_pane_drawButtonWidget {pane : Pane} (font : Font) (activeApp : List UInt8)
    (labels : Labels) (id : ButtonId) (pressed : Bool)
    (box : pane.Holds (button labels id).x (button labels id).y (button labels id).w
      (button labels id).h) :
    (drawButtonWidget font activeApp (button labels id) pressed).Within pane.contains := by
  obtain ⟨_, ⟨wide, subWide⟩, broad, high⟩ := button_fits labels id
  have length := length_buttonLabel activeApp (button labels id)
  generalize button labels id = button at *
  have ⟨⟨left, right⟩, top, bottom⟩ := box
  have fitsWide : ((buttonLabel activeApp button).length * 8 * 2 : Int) ≤ button.w := by omega
  apply Layer.Within.stack
  intro layer member
  simp only [if_pos high, List.mem_append, List.mem_cons, List.not_mem_nil, or_false] at member
  rcases member with (rfl | rfl) | text
  · exact within_fbDrawRect box _
  · exact within_fbDrawRectOutline box (by omega) (by omega) _
  · split at text
    · simp only [List.mem_cons, List.not_mem_nil, or_false] at text
      rcases text with rfl | rfl
      · exact within_pane_drawStringCentered font ⟨⟨left, right⟩, by omega, by omega⟩ fitsWide
          (by decide) _ _
      · exact within_pane_drawStringCentered font ⟨⟨left, right⟩, by omega, by omega⟩
          (by omega) (by decide) _ _
    · rw [List.mem_singleton] at text
      rw [text]
      exact within_pane_drawStringCentered font box fitsWide (by push_cast; omega) _ _

/-- A button is drawn inside the dialog, whatever its texts. -/
theorem within_drawButtonWidget (font : Font) (activeApp : List UInt8) (labels : Labels)
    (id : ButtonId) (pressed : Bool) :
    (drawButtonWidget font activeApp (button labels id) pressed).Within inDialog := by
  have inside : dialogPane.Holds (button labels id).x (button labels id).y (button labels id).w
      (button labels id).h := (button_fits labels id).1
  exact within_pane_drawButtonWidget font activeApp labels id pressed inside

/-! ### Texts from the outside -/

/-- No line of the report makes the status longer than its buffer. -/
theorem length_status_readLine {music : MusicStatus} (short : music.status.length ≤ 31)
    (buffer : List UInt8) : (music.readLine buffer).status.length ≤ 31 := by
  simp only [MusicStatus.readLine]
  split_ifs
  · exact List.length_take_le _ _
  · exact short
  · exact short
  · exact short

/-- The state of the player is never longer than its buffer. -/
theorem length_status_queryMusicStatus (buffers : List (List UInt8)) :
    (queryMusicStatus buffers).status.length ≤ 31 := by
  have start : (({} : MusicStatus)).status.length ≤ 31 := by decide
  unfold queryMusicStatus
  generalize ({} : MusicStatus) = music at start ⊢
  induction buffers generalizing music with
  | nil => exact start
  | cons buffer rest ih => exact ih _ (length_status_readLine start buffer)

/-- The track line fits the dialog. -/
theorem length_trackText (music : MusicStatus) : (trackText music).length ≤ 52 := by
  have heading : (ascii "Track: ").length = 7 := rfl
  have missing : (ascii "(No track loaded)").length = 17 := rfl
  unfold trackText
  split <;>
    simp only [bounded, List.length_take, List.length_append, heading, missing] <;>
    omega

/-- The status line fits the dialog. -/
theorem length_stateText {music : MusicStatus} (short : music.status.length ≤ 31) :
    (stateText music).length ≤ 56 := by
  have heading : (ascii "Status: ").length = 8 := rfl
  have middle : (ascii "  |  Shuffle: ").length = 14 := rfl
  have last : (padded 3 (if music.shuffle then ascii "ON" else ascii "OFF")).length = 3 := by
    cases music.shuffle <;> rfl
  have status : (padded 8 music.status).length ≤ 31 := by
    rw [padded, List.length_append, List.length_replicate]
    omega
  simp only [stateText, bounded, List.length_take, List.length_append, heading, middle, last]
  omega

/-- The battery's text is at most 13 characters long. -/
theorem length_queryBatteryStatus (capacity : Option Int) (status : Option (List UInt8)) :
    (queryBatteryStatus capacity status).length ≤ 13 := by
  have heading : (ascii "BAT ").length = 4 := rfl
  have percent : (ascii "% ").length = 2 := rfl
  have digits : ∀ number, (decimal number).length ≤ 3 := by
    intro number
    unfold decimal
    split_ifs <;> simp
  have tag : ∀ status, (batteryTag status).length ≤ 4 := by
    intro status
    unfold batteryTag
    split_ifs <;> decide
  simp only [queryBatteryStatus]
  split
  · decide
  · have number := digits (capacity.getD (-1)).toNat
    have state := tag (AppFiles.firstLine (status.getD []))
    simp only [List.length_append, heading, percent]
    omega

/-! ### The sections -/

/-- The rectangle of the music player, its buttons included. -/
def musicPane : Pane where
  left := 202
  top := 800
  width := 1000
  height := 300

/-- The music section is drawn inside its pane. -/
theorem within_musicPane (font : Font) (activeApp : List UInt8) {music : MusicStatus}
    (short : music.status.length ≤ 31) :
    (drawMusicSection font activeApp music).Within musicPane.contains := by
  have track := length_trackText music
  have state := length_stateText short
  apply Layer.Within.stack
  simp only [List.forall_mem_cons, List.not_mem_nil, false_imp_iff, implies_true, and_true]
  refine ⟨?_, ?_, ?_, ?_, ?_, ?_, ?_, ?_, ?_, ?_⟩
  · exact within_fbDrawRect (by decide) _
  · exact within_fbDrawRectOutline (by decide) (by decide) (by decide) _
  · exact within_fbDrawRect (by decide) _
  · exact within_pane_drawString font (by decide) _ _
  · exact within_pane_drawString font ⟨⟨by decide, by simp only [musicPane]; push_cast; omega⟩,
      by decide, by decide⟩ _ _
  · exact within_pane_drawString font ⟨⟨by decide, by simp only [musicPane]; push_cast; omega⟩,
      by decide, by decide⟩ _ _
  · have box : musicPane.Holds 202 980 230 100 := by decide
    exact within_pane_drawButtonWidget font activeApp _ _ _ box
  · have box : musicPane.Holds 452 980 270 100 := by decide
    exact within_pane_drawButtonWidget font activeApp _ _ _ box
  · have box : musicPane.Holds 742 980 230 100 := by decide
    exact within_pane_drawButtonWidget font activeApp _ _ _ box
  · have box : musicPane.Holds 992 980 210 100 := by decide
    exact within_pane_drawButtonWidget font activeApp _ _ _ box

/-- The music pane lies in the dialog. -/
theorem inDialog_of_musicPane {row column : Nat} (inside : musicPane.contains row column = true) :
    inDialog row column = true := by
  unfold musicPane Pane.contains at inside
  unfold inDialog dlgX dlgY dlgW dlgH
  simp only [Bool.and_eq_true, decide_eq_true_eq] at inside ⊢
  omega

/-- The music section is drawn inside the dialog. -/
theorem within_drawMusicSection (font : Font) (activeApp : List UInt8) {music : MusicStatus}
    (short : music.status.length ≤ 31) :
    (drawMusicSection font activeApp music).Within inDialog := by
  intro row column outside
  apply within_musicPane font activeApp short row column
  cases inside : musicPane.contains row column with
  | false => rfl
  | true =>
      rw [inDialog_of_musicPane inside] at outside
      cases outside

/-- The whole dialog is drawn inside its rectangle, whatever the battery and the player report. -/
theorem within_drawDialog (font : Font) (activeApp : List UInt8) {battery : List UInt8}
    {music : MusicStatus} (narrow : battery.length ≤ 13) (short : music.status.length ≤ 31) :
    (drawDialog font activeApp battery music).Within inDialog := by
  apply Layer.Within.stack
  simp only [List.forall_mem_cons, List.not_mem_nil, false_imp_iff, implies_true, and_true]
  refine ⟨?_, ?_, ?_, ?_, ?_, ?_, ?_, ?_, ?_, ?_, ?_, ?_⟩
  · exact within_drawRect (by decide) _
  · exact within_drawRectOutline (by decide) (by decide) (by decide) _
  · exact within_drawRect (by decide) _
  · exact within_drawStringCentered font (by decide) (by decide) (by decide) _ _
  · exact within_drawString font ⟨⟨by simp only [dlgX, dlgW]; push_cast; omega,
      by simp only [dlgX, dlgW]; push_cast; omega⟩, by decide, by decide⟩ _ _
  · exact within_drawString font (by decide) _ _
  · exact within_drawButtonWidget font activeApp _ _ _
  · exact within_drawButtonWidget font activeApp _ _ _
  · exact within_drawButtonWidget font activeApp _ _ _
  · exact within_drawMusicSection font activeApp short
  · exact within_drawButtonWidget font activeApp _ _ _
  · exact within_drawButtonWidget font activeApp _ _ _

end Nookobo.Switcher
