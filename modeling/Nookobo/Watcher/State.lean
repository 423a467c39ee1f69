import Nookobo.ActiveApp

/-!
# The button watcher: vocabulary and variables

`btn-watcher` grabs the physical key device and writes to a virtual one. Its
inputs are evdev events and clock readings, its outputs the `Effect`s below:
the events written to the uinput device, the log lines, the commands handed to
the shell, the active-application files and the calls that paint or restore an
overlay. `State` holds the variables of `main` and the file-scope statics that
its control flow reads.
-/

namespace Nookobo.Watcher

/-! ## Input events -/

/-- `EV_SYN`, `EV_KEY` and `EV_SW`. -/
def evSyn : Nat := 0
def evKey : Nat := 1
def evSw : Nat := 5

/-- `KEY_HOME` and `KEY_POWER`. -/
def keyHome : Nat := 102
def keyPower : Nat := 116

/-- Top Left, Bottom Left, Top Right and Bottom Right are 191 to 194. -/
def isPageKey (code : Nat) : Bool := 191 ≤ code && code ≤ 194

/-- `POWER_DOUBLE_CLICK_MS` and `HOME_LONG_PRESS_MS`. -/
def powerDoubleClickMs : UInt64 := 400
def homeLongPressMs : UInt64 := 500

/-- An evdev record without its time stamp. -/
structure InputEvent where
  type : Nat
  code : Nat
  value : Int
deriving DecidableEq, Repr

/-! ## Outputs -/

/-- The lines `btn-watcher` prints. -/
inductive Message where
  | powerSingleTap
  | homeLongPressDetected
  | homeSingleTap
  | doublePowerTap
  | homeDoubleTap
  | homeLongPressReleased
  | homeTapInMediaMode
  | chordKoreaderFrontlight
  | chordSwitchToKoreader
  | chordPlatoFrontlight
  | chordSwitchToPlato
  | chordCloseNetsurf
  | chordLaunchNetsurf
  | chordMediaActive
  | chordMediaBackground
  | mediaPrevTrack
  | mediaShuffle
  | mediaNextTrack
  | mediaPlayPause
  | lidClosed (app : List UInt8)
  | lidOpen
deriving DecidableEq, Repr

/-- What one statement of the program does to the world outside it. -/
inductive Effect where
  /-- One event written to the uinput device. -/
  | emit (event : InputEvent)
  | print (message : Message)
  | usleep (microseconds : Nat)
  | system (command : String)
  /-- `set_active_app`: both files are rewritten. -/
  | setActiveApp (app : App)
  /-- The synthetic double tap on the touch device. -/
  | injectPlatoFrontlight
  | showToast (title subtitle : String)
  | hideToast
  | showMediaCard (status : String)
  | hideMediaCard
deriving DecidableEq, Repr

/-! ## Variables -/

/-- The variables that outlive one pass of the main loop. The three pointers
to the framebuffer and its two backups are kept as "is not NULL". -/
structure State where
  fbMem : Bool := false
  toastBackup : Bool := false
  cardBackup : Bool := false
  toastActive : Bool := false
  cardActive : Bool := false
  toastExpireTime : UInt64 := 0
  mediaMode : Bool := false
  powerPending : Bool := false
  powerDownTime : UInt64 := 0
  homeDown : Bool := false
  homeComboConsumed : Bool := false
  homePendingSingle : Bool := false
  homeLongSent : Bool := false
  homeDownTime : UInt64 := 0
  homeSingleTime : UInt64 := 0
  homeDoubleConsumed : Bool := false
deriving DecidableEq, Repr

/-- What the system calls of `fb_init` return when it is reached. -/
structure FbOutcome where
  mapped : Bool
  toastAllocated : Bool
  cardAllocated : Bool
deriving DecidableEq, Repr

/-- An event delivered by `read`, with the clock reading taken after it and
the surroundings its handler may consult. -/
structure Arrival where
  event : InputEvent
  now : UInt64
  files : AppFiles
  fb : FbOutcome
deriving DecidableEq, Repr

/-- One pass of the main loop: the clock at the loop top and, unless `select`
timed out, was interrupted or `read` came up short, one event. -/
structure Pass where
  top : UInt64
  arrival : Option Arrival
deriving DecidableEq, Repr

end Nookobo.Watcher
