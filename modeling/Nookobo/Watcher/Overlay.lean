import Nookobo.Semantics.Run
import Nookobo.Switcher.Dialog
import Nookobo.Watcher.Loop

/-!
# The button watcher: the pixels of its overlays

The toast at the top of the screen and the media card in its middle are drawn over whatever
application is running, which is not told. Both save the rectangle they cover when they come
up and copy it back when they are hidden. Which of the two comes and goes first is up to
timers and keys.

`Overlays` has the pixels beside the variables of the main loop; its four operations do to
the variables what the calls of `Loop` do. Every text the watcher may show is narrower than
the box it is centred in, so all drawing stays in the saved rectangle, and the two together
are a `Shelf` of two panes.

The drawing routines are those of the app switcher, statement for statement.
-/

namespace Nookobo.Watcher

open Nookobo.Semantics Nookobo.Text Nookobo.Shim
open Nookobo.Switcher (drawRect drawRectOutline drawStringCentered)

/-! ## What is drawn -/

/-- `TOAST_X`, `TOAST_Y`, `TOAST_W` and `TOAST_H`. -/
def toastPane : Pane where
  left := 102
  top := 60
  width := 1200
  height := 160

/-- `CARD_X`, `CARD_Y`, `CARD_W` and `CARD_H`. -/
def cardPane : Pane where
  left := 102
  top := 536
  width := 1200
  height := 800

/-- The drawing of `show_toast`. A subtitle that is missing or empty leaves the whole box to
the title. -/
def drawToast (font : Font) (title : List UInt8) (subtitle : Option (List UInt8)) :
    Layer UInt16 :=
  .stack
    ([drawRect 102 60 1200 160 0x0000, drawRectOutline 102 60 1200 160 4 0xFFFF] ++
    if subtitle.getD [] ≠ [] then
      [drawStringCentered font 102 (60 + 25) 1200 55 title 3 0xFFFF 0x0000,
        drawStringCentered font 102 (60 + 95) 1200 40 (subtitle.getD []) 2 0xDEFB 0x0000]
    else [drawStringCentered font 102 60 1200 160 title 3 0xFFFF 0x0000])

/-- One of the four quadrants of the card: the name of a key above what it does. -/
def drawQuadrant (font : Font) (x y : Int) (button action : String) : Layer UInt16 :=
  .stack
    [drawRect x y 560 195 0xFFFF,
      drawRectOutline x y 560 195 3 0x0000,
      drawStringCentered font x (y + 35) 560 35 (ascii button) 2 0x0000 0xFFFF,
      drawStringCentered font x (y + 95) 560 55 (ascii action) 3 0x0000 0xFFFF]

/-- A line of the footer. -/
def drawFooterLine (font : Font) (y : Int) (text : String) : Layer UInt16 :=
  drawStringCentered font 102 y 1200 35 (ascii text) 2 0x0000 0xFFFF

/-- The drawing of `show_media_card`. -/
def drawMediaCard (font : Font) (status : Option (List UInt8)) : Layer UInt16 :=
  .stack
    [drawRect 102 536 1200 800 0xFFFF,
      drawRectOutline 102 536 1200 800 6 0x0000,
      drawRectOutline (102 + 10) (536 + 10) (1200 - 20) (800 - 20) 2 0x0000,
      drawRect (102 + 14) (536 + 14) (1200 - 28) 125 0x0000,
      drawStringCentered font (102 + 14) (536 + 26) (1200 - 28) 50 (ascii "MEDIA PLAYER CONTROLS") 3
        0xFFFF 0x0000,
      drawStringCentered font (102 + 14) (536 + 84) (1200 - 28) 36
        (status.getD (ascii "PLAYBACK ACTIVE")) 2 0xFFFF 0x0000,
      drawQuadrant font (102 + 25) (536 + 160) "[ TOP-LEFT BUTTON (F9) ]" "|<< PREV TRACK",
      drawQuadrant font (102 + 615) (536 + 160) "[ TOP-RIGHT BUTTON (F11) ]" "NEXT TRACK >>|",
      drawQuadrant font (102 + 25) (536 + 375) "[ BOTTOM-LEFT BUTTON (F10) ]" "SHUFFLE ON / OFF",
      drawQuadrant font (102 + 615) (536 + 375) "[ BOTTOM-RIGHT BUTTON (F12) ]" ">|| PLAY / PAUSE",
      drawRect (102 + 25) (536 + 585) (1200 - 50) 3 0x0000,
      drawFooterLine font (536 + 605) "HOME BUTTON:  >|| PLAY / PAUSE",
      drawFooterLine font (536 + 655) "HOLD HOME + BOTTOM-RIGHT:  RETURN TO READING",
      drawFooterLine font (536 + 705) "(Music continues playing seamlessly in background)"]

/-! ## The four operations -/

/-- The variables of the main loop, the framebuffer, by row and column of its stride, and the
contents of the two backups. -/
structure Overlays where
  state : State := {}
  frame : Frame UInt16
  toastBackup : Frame UInt16
  cardBackup : Frame UInt16

namespace Overlays

/-- `hide_toast`: the saved pane comes back. -/
def hideToast (overlays : Overlays) : Overlays :=
  if !overlays.state.toastActive || !overlays.state.fbMem ||
      !overlays.state.toastBackup then overlays
  else
    { overlays with
      frame := toastPane.restore overlays.frame overlays.toastBackup
      state := { overlays.state with toastActive := false } }

/-- `show_toast`: the pane is saved first, unless a toast is up already. -/
def showToast (font : Font) (title : List UInt8) (subtitle : Option (List UInt8)) (now : UInt64)
    (outcome : FbOutcome) (overlays : Overlays) : Overlays :=
  let state := overlays.state.fbInit outcome
  if !state.fbMem then { overlays with state := state }
  else
    { overlays with
      toastBackup :=
        if !state.toastActive && state.toastBackup then toastPane.save overlays.frame
        else overlays.toastBackup
      frame := overlays.frame.overlay (drawToast font title subtitle)
      state := { state with toastActive := true, toastExpireTime := now + 2200 } }

/-- `hide_media_card`: the saved pane comes back. -/
def hideMediaCard (overlays : Overlays) : Overlays :=
  if !overlays.state.cardActive || !overlays.state.fbMem ||
      !overlays.state.cardBackup then overlays
  else
    { overlays with
      frame := cardPane.restore overlays.frame overlays.cardBackup
      state := { overlays.state with cardActive := false } }

/-- `show_media_card`: the pane is saved first, unless the card is up already. -/
def showMediaCard (font : Font) (status : Option (List UInt8)) (outcome : FbOutcome)
    (overlays : Overlays) : Overlays :=
  let state := overlays.state.fbInit outcome
  if !state.fbMem then { overlays with state := state }
  else
    { overlays with
      cardBackup :=
        if !state.cardActive && state.cardBackup then cardPane.save overlays.frame
        else overlays.cardBackup
      frame := overlays.frame.overlay (drawMediaCard font status)
      state := { state with cardActive := true } }

/-! On the variables these are the operations of the main loop. -/

/-- With its pixels, `hide_toast` moves the variables as in the main loop. -/
theorem state_hideToast (overlays : Overlays) :
    overlays.hideToast.state = (Watcher.hideToast overlays.state).1 := by
  unfold hideToast Watcher.hideToast
  split <;> rfl

/-- With its pixels, `show_toast` moves the variables as in the main loop. -/
theorem state_showToast (font : Font) (title subtitle : String) (now : UInt64)
    (outcome : FbOutcome) (overlays : Overlays) :
    (overlays.showToast font (ascii title) (some (ascii subtitle)) now outcome).state =
      (Watcher.showToast title subtitle now outcome overlays.state).1 := by
  simp only [showToast, Watcher.showToast]
  split <;> rfl

/-- With its pixels, `hide_media_card` moves the variables as in the main loop. -/
theorem state_hideMediaCard (overlays : Overlays) :
    overlays.hideMediaCard.state = (Watcher.hideMediaCard overlays.state).1 := by
  unfold hideMediaCard Watcher.hideMediaCard
  split <;> rfl

/-- With its pixels, `show_media_card` moves the variables as in the main loop. -/
theorem state_showMediaCard (font : Font) (status : String) (outcome : FbOutcome)
    (overlays : Overlays) :
    (overlays.showMediaCard font (some (ascii status)) outcome).state =
      (Watcher.showMediaCard status outcome overlays.state).1 := by
  simp only [showMediaCard, Watcher.showMediaCard]
  split <;> rfl

end Overlays

/-! ## Drawing stays in the saved rectangles -/

/-- A toast whose texts fit is drawn inside its pane. -/
theorem within_drawToast (font : Font) {title : List UInt8} {subtitle : Option (List UInt8)}
    (titleFits : title.length ≤ 50) (subtitleFits : (subtitle.getD []).length ≤ 75) :
    (drawToast font title subtitle).Within toastPane.contains := by
  have titleWide : (title.length * 8 * (3 : Nat) : Int) ≤ 1200 := by omega
  have subtitleWide : ((subtitle.getD []).length * 8 * (2 : Nat) : Int) ≤ 1200 := by omega
  apply Layer.Within.stack
  intro layer member
  simp only [List.mem_append, List.mem_cons, List.not_mem_nil, or_false] at member
  rcases member with (rfl | rfl) | text
  · exact within_fbDrawRect (by decide) _
  · exact within_fbDrawRectOutline (by decide) (by decide) (by decide) _
  · split at text
    · simp only [List.mem_cons, List.not_mem_nil, or_false] at text
      rcases text with rfl | rfl
      · exact Switcher.within_pane_drawStringCentered font (by decide) titleWide (by decide) _ _
      · exact Switcher.within_pane_drawStringCentered font (by decide) subtitleWide (by decide) _ _
    · rw [List.mem_singleton] at text
      rw [text]
      exact Switcher.within_pane_drawStringCentered font (by decide) titleWide (by decide) _ _

/-- A quadrant of the card is drawn inside the card's pane. -/
theorem within_drawQuadrant (font : Font) {x y : Int} {button action : String}
    (box : cardPane.Holds x y 560 195) (buttonFits : (ascii button).length ≤ 35)
    (actionFits : (ascii action).length ≤ 23) :
    (drawQuadrant font x y button action).Within cardPane.contains := by
  have buttonWide : ((ascii button).length * 8 * (2 : Nat) : Int) ≤ 560 := by omega
  have actionWide : ((ascii action).length * 8 * (3 : Nat) : Int) ≤ 560 := by omega
  obtain ⟨across, top, bottom⟩ := box
  apply Layer.Within.stack
  simp only [List.forall_mem_cons, List.not_mem_nil, false_implies, implies_true, and_true]
  refine ⟨?_, ?_, ?_, ?_⟩
  · exact within_fbDrawRect ⟨across, top, bottom⟩ _
  · exact within_fbDrawRectOutline ⟨across, top, bottom⟩ (by decide) (by decide) _
  · exact Switcher.within_pane_drawStringCentered font ⟨across, by omega, by omega⟩ buttonWide
      (by decide) _ _
  · exact Switcher.within_pane_drawStringCentered font ⟨across, by omega, by omega⟩ actionWide
      (by decide) _ _

/-- A line of the footer is drawn inside the card's pane. -/
theorem within_drawFooterLine (font : Font) {y : Int} {text : String}
    (box : cardPane.Holds 102 y 1200 35) (fits : (ascii text).length ≤ 75) :
    (drawFooterLine font y text).Within cardPane.contains := by
  have wide : ((ascii text).length * 8 * (2 : Nat) : Int) ≤ 1200 := by omega
  exact Switcher.within_pane_drawStringCentered font box wide (by decide) _ _

/-- The status text that stands in for a missing one fits too. -/
theorem length_status_le {status : Option (List UInt8)} (fits : (status.getD []).length ≤ 73) :
    (status.getD (ascii "PLAYBACK ACTIVE")).length ≤ 73 := by
  cases status with
  | none => decide +kernel
  | some text => exact fits

/-- A card whose status fits is drawn inside its pane. -/
theorem within_drawMediaCard (font : Font) {status : Option (List UInt8)}
    (fits : (status.getD (ascii "PLAYBACK ACTIVE")).length ≤ 73) :
    (drawMediaCard font status).Within cardPane.contains := by
  have wide : ((status.getD (ascii "PLAYBACK ACTIVE")).length * 8 * (2 : Nat) : Int) ≤
      1200 - 28 := by omega
  apply Layer.Within.stack
  simp only [List.forall_mem_cons, List.not_mem_nil, false_implies, implies_true, and_true]
  refine ⟨?_, ?_, ?_, ?_, ?_, ?_, ?_, ?_, ?_, ?_, ?_, ?_, ?_, ?_⟩
  · exact within_fbDrawRect (by decide) _
  · exact within_fbDrawRectOutline (by decide) (by decide) (by decide) _
  · exact within_fbDrawRectOutline (by decide) (by decide) (by decide) _
  · exact within_fbDrawRect (by decide) _
  · exact Switcher.within_pane_drawStringCentered font (by decide) (by decide +kernel) (by decide)
      _ _
  · exact Switcher.within_pane_drawStringCentered font (by decide) wide (by decide) _ _
  · exact within_drawQuadrant font (by decide) (by decide +kernel) (by decide +kernel)
  · exact within_drawQuadrant font (by decide) (by decide +kernel) (by decide +kernel)
  · exact within_drawQuadrant font (by decide) (by decide +kernel) (by decide +kernel)
  · exact within_drawQuadrant font (by decide) (by decide +kernel) (by decide +kernel)
  · exact within_fbDrawRect (by decide) _
  · exact within_drawFooterLine font (by decide) (by decide +kernel)
  · exact within_drawFooterLine font (by decide) (by decide +kernel)
  · exact within_drawFooterLine font (by decide) (by decide +kernel)

/-! ## The two panes -/

/-- The two overlays. -/
inductive OverlayId where
  | toast
  | card
deriving DecidableEq, Repr

/-- Where each overlay is drawn. -/
def OverlayId.pane : OverlayId → Pane
  | .toast => toastPane
  | .card => cardPane

/-- The two overlays have no pixel in common. -/
theorem OverlayId.pane_apart (first second : OverlayId) (different : first ≠ second) :
    first.pane.Apart second.pane := by
  have above : toastPane.Apart cardPane := Pane.apart_of_above (by decide)
  cases first <;> cases second <;>
    first | exact absurd rfl different | exact above | exact above.symm

namespace Overlays

/-- The overlays as panes on one screen. -/
def shelf (overlays : Overlays) : Shelf OverlayId UInt16 where
  frame := overlays.frame
  shown
    | .toast => overlays.state.toastActive
    | .card => overlays.state.cardActive
  backup
    | .toast => overlays.toastBackup
    | .card => overlays.cardBackup

/-- Once the framebuffer is mapped both backups are there, and nothing is shown before. -/
structure Ready (overlays : Overlays) : Prop where
  allocated : overlays.state.fbMem = true →
    overlays.state.toastBackup = true ∧ overlays.state.cardBackup = true
  mapped : overlays.state.toastActive = true ∨ overlays.state.cardActive = true →
    overlays.state.fbMem = true

/-- The allocations of `fb_init` succeed if it gets to them. -/
def Allocates (outcome : FbOutcome) : Prop :=
  outcome.mapped = true → outcome.toastAllocated = true ∧ outcome.cardAllocated = true

/-- A call from the main loop, with what the system calls of `fb_init` would return. -/
inductive Call where
  | showToast (title : List UInt8) (subtitle : Option (List UInt8)) (now : UInt64)
      (outcome : FbOutcome)
  | hideToast
  | showMediaCard (status : Option (List UInt8)) (outcome : FbOutcome)
  | hideMediaCard

/-- What a call does. -/
def call (font : Font) (overlays : Overlays) : Call → Overlays
  | .showToast title subtitle now outcome => overlays.showToast font title subtitle now outcome
  | .hideToast => overlays.hideToast
  | .showMediaCard status outcome => overlays.showMediaCard font status outcome
  | .hideMediaCard => overlays.hideMediaCard

/-- The texts fit the boxes they are shown in, and the backups can be allocated. -/
def Call.Fits : Call → Prop
  | .showToast title subtitle _ outcome =>
      title.length ≤ 50 ∧ (subtitle.getD []).length ≤ 75 ∧ Allocates outcome
  | .showMediaCard status outcome => (status.getD []).length ≤ 73 ∧ Allocates outcome
  | .hideToast | .hideMediaCard => True

/-- The overlays from any start, over any calls. -/
def machine (font : Font) (initial : Overlays) : Machine Overlays Call where
  initial := initial
  step := call font

/-! ## The code does what the panes do -/

/-- `fb_init` shows nothing and hides nothing. -/
theorem fbInit_spec {overlays : Overlays} (ready : overlays.Ready) {outcome : FbOutcome}
    (allocates : Allocates outcome) :
    { overlays with state := overlays.state.fbInit outcome }.Ready ∧
      { overlays with state := overlays.state.fbInit outcome }.shelf = overlays.shelf := by
  simp only [State.fbInit]
  split
  · exact ⟨ready, rfl⟩
  · split
    · next maps => exact ⟨⟨fun _ => allocates maps, fun _ => rfl⟩, rfl⟩
    · exact ⟨ready, rfl⟩

/-- Two screens with panes are equal when frame, flags and backups are. -/
theorem shelf_ext {first second : Shelf OverlayId UInt16} (frame : first.frame = second.frame)
    (shown : ∀ id, first.shown id = second.shown id)
    (backup : ∀ id, first.backup id = second.backup id) : first = second := by
  cases first
  cases second
  obtain rfl : _ = _ := frame
  obtain rfl : _ = _ := funext shown
  obtain rfl : _ = _ := funext backup
  rfl

/-- Showing a toast brings its pane up, where the framebuffer can be had. -/
theorem showToast_spec (font : Font) {overlays : Overlays} (ready : overlays.Ready)
    {outcome : FbOutcome} (allocates : Allocates outcome) (title : List UInt8)
    (subtitle : Option (List UInt8)) (now : UInt64) :
    (overlays.showToast font title subtitle now outcome).Ready ∧
      (overlays.showToast font title subtitle now outcome).shelf =
        if (overlays.state.fbInit outcome).fbMem then
          overlays.shelf.bringUp OverlayId.pane .toast (drawToast font title subtitle)
        else overlays.shelf := by
  obtain ⟨initialised, same⟩ := fbInit_spec ready allocates
  have kept := initialised.allocated
  simp only [showToast]
  rw [← same]
  generalize drawToast font title subtitle = layer
  generalize overlays.state.fbInit outcome = state at *
  simp only at kept
  cases mapped : state.fbMem with
  | false =>
      simp only [Bool.not_false, if_true]
      exact ⟨initialised, rfl⟩
  | true =>
      simp only [(kept mapped).1, Bool.and_true, Bool.not_true, Bool.false_eq_true, if_false]
      refine ⟨⟨fun _ => ⟨rfl, (kept mapped).2⟩, fun _ => rfl⟩, ?_⟩
      apply shelf_ext
      · rfl
      · rintro (_ | _) <;> rfl
      · rintro (_ | _) <;> cases active : state.toastActive <;>
          simp [shelf, Shelf.bringUp, active, OverlayId.pane]

/-- Showing the card brings its pane up, where the framebuffer can be had. -/
theorem showMediaCard_spec (font : Font) {overlays : Overlays} (ready : overlays.Ready)
    {outcome : FbOutcome} (allocates : Allocates outcome) (status : Option (List UInt8)) :
    (overlays.showMediaCard font status outcome).Ready ∧
      (overlays.showMediaCard font status outcome).shelf =
        if (overlays.state.fbInit outcome).fbMem then
          overlays.shelf.bringUp OverlayId.pane .card (drawMediaCard font status)
        else overlays.shelf := by
  obtain ⟨initialised, same⟩ := fbInit_spec ready allocates
  have kept := initialised.allocated
  simp only [showMediaCard]
  rw [← same]
  generalize drawMediaCard font status = layer
  generalize overlays.state.fbInit outcome = state at *
  simp only at kept
  cases mapped : state.fbMem with
  | false =>
      simp only [Bool.not_false, if_true]
      exact ⟨initialised, rfl⟩
  | true =>
      simp only [(kept mapped).2, Bool.and_true, Bool.not_true, Bool.false_eq_true, if_false]
      refine ⟨⟨fun _ => ⟨(kept mapped).1, rfl⟩, fun _ => rfl⟩, ?_⟩
      apply shelf_ext
      · rfl
      · rintro (_ | _) <;> rfl
      · rintro (_ | _) <;> cases active : state.cardActive <;>
          simp [shelf, Shelf.bringUp, active, OverlayId.pane]

/-- Hiding the toast takes its pane down. -/
theorem hideToast_spec {overlays : Overlays} (ready : overlays.Ready) :
    overlays.hideToast.Ready ∧
      overlays.hideToast.shelf = overlays.shelf.takeDown OverlayId.pane .toast := by
  cases active : overlays.state.toastActive with
  | false => simpa [hideToast, Shelf.takeDown, shelf, active] using ready
  | true =>
      have mapped := ready.mapped (.inl active)
      have kept := ready.allocated mapped
      simp only [hideToast, active, mapped, kept.1, Bool.not_true, Bool.or_self,
        Bool.false_eq_true, if_false]
      refine ⟨⟨fun _ => ⟨rfl, kept.2⟩, fun _ => rfl⟩, ?_⟩
      apply shelf_ext
      · simp [shelf, Shelf.takeDown, active, OverlayId.pane]
      · rintro (_ | _) <;> simp [shelf, Shelf.takeDown, active]
      · rintro (_ | _) <;> simp [shelf, Shelf.takeDown, active]

/-- Hiding the card takes its pane down. -/
theorem hideMediaCard_spec {overlays : Overlays} (ready : overlays.Ready) :
    overlays.hideMediaCard.Ready ∧
      overlays.hideMediaCard.shelf = overlays.shelf.takeDown OverlayId.pane .card := by
  cases active : overlays.state.cardActive with
  | false => simpa [hideMediaCard, Shelf.takeDown, shelf, active] using ready
  | true =>
      have mapped := ready.mapped (.inr active)
      have kept := ready.allocated mapped
      simp only [hideMediaCard, active, mapped, kept.2, Bool.not_true, Bool.or_self,
        Bool.false_eq_true, if_false]
      refine ⟨⟨fun _ => ⟨kept.1, rfl⟩, fun _ => rfl⟩, ?_⟩
      apply shelf_ext
      · simp [shelf, Shelf.takeDown, active, OverlayId.pane]
      · rintro (_ | _) <;> simp [shelf, Shelf.takeDown, active]
      · rintro (_ | _) <;> simp [shelf, Shelf.takeDown, active]

/-! ## Whatever comes and goes, the screen is given back -/

/-- Nothing of the original screen is lost. -/
structure Safe (original : Frame UInt16) (overlays : Overlays) : Prop where
  ready : overlays.Ready
  restorable : overlays.shelf.Restorable OverlayId.pane original

/-- A call keeps the screen restorable. -/
theorem safe_call (font : Font) {original : Frame UInt16} {overlays : Overlays}
    (safe : overlays.Safe original) {call : Call} (fits : call.Fits) :
    (overlays.call font call).Safe original := by
  obtain ⟨ready, restorable⟩ := safe
  cases call with
  | showToast title subtitle now outcome =>
      obtain ⟨titleFits, subtitleFits, allocates⟩ := fits
      have spec := showToast_spec font ready allocates title subtitle now
      refine ⟨spec.1, ?_⟩
      rw [call, spec.2]
      split
      · exact restorable.bringUp OverlayId.pane_apart
          (within_drawToast font titleFits subtitleFits)
      · exact restorable
  | hideToast =>
      have spec := hideToast_spec ready
      refine ⟨spec.1, ?_⟩
      rw [call, spec.2]
      exact restorable.takeDown .toast
  | showMediaCard status outcome =>
      obtain ⟨statusFits, allocates⟩ := fits
      have spec := showMediaCard_spec font ready allocates status
      refine ⟨spec.1, ?_⟩
      rw [call, spec.2]
      split
      · exact restorable.bringUp OverlayId.pane_apart
          (within_drawMediaCard font (length_status_le statusFits))
      · exact restorable
  | hideMediaCard =>
      have spec := hideMediaCard_spec ready
      refine ⟨spec.1, ?_⟩
      rw [call, spec.2]
      exact restorable.takeDown .card

/-- The overlays that are not up leave no trace: with neither up the whole framebuffer is the
original one, the columns that pad its rows included; with one up, everything outside it. -/
structure GivenBack (original : Frame UInt16) (overlays : Overlays) : Prop where
  neither : overlays.state.toastActive = false → overlays.state.cardActive = false →
    overlays.frame = original
  toast_only : overlays.state.toastActive = true → overlays.state.cardActive = false →
    ∀ row column, toastPane.contains row column = false →
      overlays.frame row column = original row column
  card_only : overlays.state.toastActive = false → overlays.state.cardActive = true →
    ∀ row column, cardPane.contains row column = false →
      overlays.frame row column = original row column

/-- What is safe is given back. -/
theorem givenBack_of_safe {original : Frame UInt16} {overlays : Overlays}
    (safe : overlays.Safe original) : overlays.GivenBack original where
  neither := by
    intro toastDown cardDown
    apply safe.restorable.frame_eq
    rintro (_ | _)
    · exact toastDown
    · exact cardDown
  toast_only := by
    intro _ cardDown row column outside
    have single : ∀ other, other ≠ OverlayId.toast → overlays.shelf.shown other = false := by
      rintro (_ | _) different
      · exact absurd rfl different
      · exact cardDown
    exact safe.restorable.frame_eq_outside single outside
  card_only := by
    intro toastDown _ row column outside
    have single : ∀ other, other ≠ OverlayId.card → overlays.shelf.shown other = false := by
      rintro (_ | _) different
      · exact toastDown
      · exact absurd rfl different
    exact safe.restorable.frame_eq_outside single outside

/-- With neither overlay shown, the screen as it is is safe. -/
theorem safe_of_hidden {overlays : Overlays}
    (hidden : overlays.state.toastActive = false ∧ overlays.state.cardActive = false)
    (allocated : overlays.state.fbMem = true →
      overlays.state.toastBackup = true ∧ overlays.state.cardBackup = true) :
    overlays.Safe overlays.frame := by
  refine ⟨⟨allocated, ?_⟩, ?_⟩
  · rintro (up | up)
    · rw [hidden.1] at up
      cases up
    · rw [hidden.2] at up
      cases up
  · have nothing : ∀ id, overlays.shelf.shown id = false := by
      rintro (_ | _)
      · exact hidden.1
      · exact hidden.2
    exact Shelf.restorable_of_hidden nothing

/-- In every state of every sequence of shows and hides the overlays that are not up leave no
trace. -/
theorem overlays_give_screen_back (font : Font) (start : Overlays)
    (hidden : start.state.toastActive = false ∧ start.state.cardActive = false)
    (allocated : start.state.fbMem = true →
      start.state.toastBackup = true ∧ start.state.cardBackup = true)
    (calls : List Call) (fit : ∀ call ∈ calls, call.Fits) :
    (machine font start).Always (GivenBack start.frame) start calls := by
  have meets : (machine font start).StepsMeet (fun _ call => call.Fits) start calls :=
    Machine.StepsMeet.of_labels fit
  refine Machine.always_of_allowed (Safe start.frame) ?_ ?_ (safe_of_hidden hidden allocated) meets
  · intro overlays safe
    exact givenBack_of_safe safe
  · intro overlays call safe fits
    exact safe_call font safe fits

/-- A toast that outlives the card it came up before. -/
theorem overlays_give_screen_back_toast_around_card :
    (machine ⟨fun _ _ => 0x18, fun _ _ => 0⟩
      { frame := fun row column => (row + column).toUInt16
        toastBackup := fun _ _ => 0
        cardBackup := fun _ _ => 0 }).Always
      (GivenBack fun row column => (row + column).toUInt16)
      { frame := fun row column => (row + column).toUInt16
        toastBackup := fun _ _ => 0
        cardBackup := fun _ _ => 0 }
      [.showToast (ascii "MEDIA MODE") (some (ascii "Controls Active")) 10 ⟨true, true, true⟩,
        .showMediaCard (some (ascii "PLAYING")) ⟨true, true, true⟩,
        .showToast (ascii "NEXT TRACK") none 20 ⟨true, true, true⟩, .hideMediaCard,
        .hideToast] := by
  refine overlays_give_screen_back _ _ ⟨rfl, rfl⟩ (fun mapped => by cases mapped) _ ?_
  simp only [List.forall_mem_cons, List.not_mem_nil, false_implies, implies_true, and_true]
  refine ⟨⟨by decide +kernel, by decide +kernel, fun _ => ⟨rfl, rfl⟩⟩,
    ⟨by decide +kernel, fun _ => ⟨rfl, rfl⟩⟩,
    ⟨by decide +kernel, by decide +kernel, fun _ => ⟨rfl, rfl⟩⟩, trivial, trivial⟩

end Overlays

end Nookobo.Watcher
