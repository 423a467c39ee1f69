import Nookobo.Watcher.HomeView

/-!
# What the handlers are made of

Apart from the power key, every event handler is a sequence of four kinds of
action: it assigns the Home variables and the media mode and writes plain
effects, it shows a toast at the time of the event, or it shows or hides the
media card. `HandlerRule` lists what a relation between a state and an outcome
has to satisfy for these, and `HandlerRule.handle` concludes it for the whole
dispatch.
-/

namespace Nookobo.Watcher

/-- The power key's variables. -/
@[ext]
structure PowerView where
  pending : Bool
  downTime : UInt64
deriving DecidableEq, Repr

/-- The power key's part of the program's state. -/
@[simps]
def State.powerView (state : State) : PowerView where
  pending := state.powerPending
  downTime := state.powerDownTime

/-- The variables of the toast and of the framebuffer under it. -/
@[ext]
structure ToastView where
  fbMem : Bool
  backup : Bool
  active : Bool
  expireTime : UInt64
deriving DecidableEq, Repr

/-- The toast's part of the program's state. -/
@[simps]
def State.toastView (state : State) : ToastView where
  fbMem := state.fbMem
  backup := state.toastBackup
  active := state.toastActive
  expireTime := state.toastExpireTime

/-- Effects that are neither a call of an overlay nor due to the power key. -/
def Effect.isPlain : Effect → Bool
  | .emit event => !(event.type == evKey && event.code == keyPower)
  | .print message => !message.isPower
  | .system command => command != "/opt/scripts/toggle_frontlight.sh &"
  | .usleep _ | .setActiveApp _ | .injectPlatoFrontlight => true
  | .showToast _ _ | .hideToast | .showMediaCard _ | .hideMediaCard => false

/-- An event of the power key. -/
def InputEvent.isPower (event : InputEvent) : Prop :=
  event.type = evKey ∧ event.code = keyPower

instance (event : InputEvent) : Decidable event.isPower :=
  inferInstanceAs (Decidable (_ ∧ _))

/-- What a relation must satisfy to hold of every handler but that of the power key. -/
structure HandlerRule (arrival : Arrival) (relation : State → State × List Effect → Prop) :
    Prop where
  andThen : ∀ {state : State} {first : State × List Effect}
    (second : State → State × List Effect),
    relation state first → relation first.1 (second first.1) →
      relation state (andThen first second)
  plain : ∀ {before after : State} {effects : List Effect},
    after.powerView = before.powerView → after.toastView = before.toastView →
      (∀ effect ∈ effects, effect.isPlain = true) → relation before (after, effects)
  showToast : ∀ (title subtitle : String) (state : State),
    relation state (showToast title subtitle arrival.now arrival.fb state)
  showMediaCard : ∀ (status : String) (state : State),
    relation state (showMediaCard status arrival.fb state)
  hideMediaCard : ∀ state : State, relation state (hideMediaCard state)

namespace HandlerRule

variable {arrival : Arrival} {relation : State → State × List Effect → Prop}

/-- Plain effects without an assignment. -/
theorem still (rule : HandlerRule arrival relation) {state : State} {effects : List Effect}
    (plain : ∀ effect ∈ effects, effect.isPlain = true) : relation state (state, effects) :=
  rule.plain rfl rfl plain

/-- A handler that touches neither part and has no effects. -/
theorem nothing (rule : HandlerRule arrival relation) {before after : State}
    (power : after.powerView = before.powerView) (toast : after.toastView = before.toastView) :
    relation before (after, []) := by
  apply rule.plain power toast
  intro effect member
  cases member

/-- An assignment to the other variables before a handler. -/
theorem assignThen (rule : HandlerRule arrival relation) {before : State} (after : State)
    {outcome : State × List Effect} (power : after.powerView = before.powerView)
    (toast : after.toastView = before.toastView) (handled : relation after outcome) :
    relation before outcome :=
  rule.andThen (fun _ => outcome) (rule.nothing power toast) handled

/-- An assignment to the other variables after a handler. -/
theorem thenAssign (rule : HandlerRule arrival relation) {before after : State}
    {outcome : State × List Effect} (handled : relation before outcome)
    (power : after.powerView = outcome.1.powerView)
    (toast : after.toastView = outcome.1.toastView) :
    relation before (after, outcome.2) := by
  have assigned := rule.andThen (fun _ => (after, [])) handled (rule.nothing power toast)
  rwa [Watcher.andThen, List.append_nil] at assigned

/-- The rule holds of a playback toggle. -/
theorem togglePlayback (rule : HandlerRule arrival relation) (message : Message)
    (shown : message.isPower = false) (state : State) :
    relation state (togglePlayback message arrival.fb state) := by
  refine rule.andThen _ (rule.still ?_) (rule.showMediaCard _ _)
  simp [Effect.isPlain, shown]

/-- The rule holds of a button of media mode. -/
theorem mediaButton (rule : HandlerRule arrival relation) (message : Message)
    (command status : String) (shown : message.isPower = false)
    (run : (Effect.system command).isPlain = true) (state : State) :
    relation state (mediaButton message command status arrival.fb state) := by
  refine rule.andThen _ (rule.still ?_) (rule.showMediaCard _ _)
  intro effect member
  rcases List.mem_cons.mp member with rfl | last
  · simp [Effect.isPlain, shown]
  · rw [List.mem_singleton.mp last]
    exact run

/-- The rule holds of leaving media mode. -/
theorem leaveMediaMode (rule : HandlerRule arrival relation) (state : State) :
    relation state (leaveMediaMode state) := by
  unfold Watcher.leaveMediaMode
  split
  · exact rule.thenAssign (rule.hideMediaCard state) rfl rfl
  · exact rule.nothing rfl rfl

/-- The rule holds of a switch of the application. -/
theorem switchTo (rule : HandlerRule arrival relation) (message : Message)
    (title subtitle : String) (app : App) (kill : String) (shown : message.isPower = false)
    (run : (Effect.system kill).isPlain = true) (state : State) :
    relation state (switchTo message title subtitle app kill arrival state) := by
  refine rule.andThen _ (rule.still ?_) ?_
  · simp [Effect.isPlain, shown]
  · refine rule.andThen _ (rule.showToast title subtitle state) (rule.still ?_)
    intro effect member
    rcases List.mem_cons.mp member with rfl | last
    · rfl
    · rw [List.mem_singleton.mp last]
      exact run

/-- The rule holds of the top left chord. -/
theorem chordTopLeft (rule : HandlerRule arrival relation) (state : State) :
    relation state (chordTopLeft arrival state) := by
  refine rule.andThen _ (rule.leaveMediaMode state) ?_
  split
  · refine rule.andThen _ (rule.still (by decide)) ?_
    exact rule.andThen _ (rule.showToast _ _ _) (rule.plain rfl rfl (by decide))
  · exact rule.switchTo _ _ _ _ _ rfl (by decide) _

/-- The rule holds of the bottom left chord. -/
theorem chordBottomLeft (rule : HandlerRule arrival relation) (state : State) :
    relation state (chordBottomLeft arrival state) := by
  refine rule.andThen _ (rule.leaveMediaMode state) ?_
  split
  · refine rule.andThen _ (rule.still (by decide)) ?_
    exact rule.andThen _ (rule.showToast _ _ _) (rule.still (by decide))
  · exact rule.switchTo _ _ _ _ _ rfl (by decide) _

/-- The rule holds of the top right chord. -/
theorem chordTopRight (rule : HandlerRule arrival relation) (state : State) :
    relation state (chordTopRight arrival state) := by
  refine rule.andThen _ (rule.leaveMediaMode state) ?_
  split
  · exact rule.switchTo _ _ _ _ _ rfl (by decide) _
  · exact rule.switchTo _ _ _ _ _ rfl (by decide) _

/-- The rule holds of the bottom right chord. -/
theorem chordBottomRight (rule : HandlerRule arrival relation) (state : State) :
    relation state (chordBottomRight arrival state) := by
  refine rule.assignThen { state with mediaMode := !state.mediaMode } rfl rfl ?_
  unfold Watcher.chordBottomRight
  dsimp only
  split
  · exact rule.andThen _ (rule.still (by decide)) (rule.showMediaCard _ _)
  · refine rule.andThen _ (rule.still (by decide)) ?_
    exact rule.andThen _ (rule.hideMediaCard _) (rule.showToast _ _ _)

/-- The rule holds of every chord. -/
theorem handleChord (rule : HandlerRule arrival relation) (state : State) :
    relation state (handleChord arrival state) := by
  refine rule.assignThen
    { state with homeComboConsumed := true, homePendingSingle := false } rfl rfl ?_
  unfold Watcher.handleChord
  dsimp only
  split
  · exact rule.chordTopLeft _
  · split
    · exact rule.chordBottomLeft _
    · split
      · exact rule.chordTopRight _
      · split
        · exact rule.chordBottomRight _
        · exact rule.nothing rfl rfl

/-- The rule holds of the buttons of media mode. -/
theorem handleMediaKey (rule : HandlerRule arrival relation) (state : State) :
    relation state (handleMediaKey arrival state) := by
  unfold Watcher.handleMediaKey
  split
  · exact rule.mediaButton _ _ _ rfl (by decide) state
  · split
    · exact rule.mediaButton _ _ _ rfl (by decide) state
    · split
      · exact rule.mediaButton _ _ _ rfl (by decide) state
      · split
        · exact rule.togglePlayback _ rfl state
        · exact rule.nothing rfl rfl

/-- Passing an event on is plain unless it is the power key's. -/
theorem forward (rule : HandlerRule arrival relation) (other : ¬ arrival.event.isPower)
    (state : State) : relation state (state, [.emit arrival.event]) := by
  refine rule.still ?_
  intro effect member
  rw [List.mem_singleton.mp member]
  simp only [Effect.isPlain, Bool.not_eq_true', Bool.and_eq_false_iff, beq_eq_false_iff_ne]
  exact not_and_or.mp other

/-- The rule holds of a page key. -/
theorem handlePage (rule : HandlerRule arrival relation) (other : ¬ arrival.event.isPower)
    (state : State) : relation state (handlePage arrival state) := by
  unfold Watcher.handlePage
  split
  · split
    · exact rule.handleChord state
    · split
      · exact rule.handleMediaKey state
      · exact rule.forward other state
  · split
    · split
      · exact rule.nothing rfl rfl
      · exact rule.forward other state
    · exact rule.nothing rfl rfl

/-- The rule holds of Home down. -/
theorem handleHomeDown (rule : HandlerRule arrival relation) (state : State) :
    relation state (handleHomeDown arrival state) := by
  have tapped : relation state
      (if isDoubleTap arrival.now state then
        Watcher.togglePlayback .homeDoubleTap arrival.fb
          { state with homePendingSingle := false, homeDoubleConsumed := true }
      else (state, [])) := by
    split
    · exact rule.assignThen
        { state with homePendingSingle := false, homeDoubleConsumed := true } rfl rfl
        (rule.togglePlayback .homeDoubleTap rfl _)
    · exact rule.nothing rfl rfl
  exact rule.thenAssign tapped rfl rfl

/-- The rule holds of Home up. -/
theorem handleHomeUp (rule : HandlerRule arrival relation) (state : State) :
    relation state (handleHomeUp arrival state) := by
  refine rule.assignThen { state with homeDown := false } rfl rfl ?_
  unfold Watcher.handleHomeUp
  dsimp only
  split
  · exact rule.nothing rfl rfl
  · split
    · exact rule.plain rfl rfl (by decide)
    · split
      · exact rule.nothing rfl rfl
      · split
        · exact rule.togglePlayback _ rfl _
        · exact rule.nothing rfl rfl

/-- The rule holds of the lid. -/
theorem handleLid (rule : HandlerRule arrival relation) (other : ¬ arrival.event.isPower)
    (state : State) : relation state (handleLid arrival state) := by
  have suspended : ∀ app : List UInt8, ∀ effect ∈
      (if arrival.event.value = 1 && app != App.koreader.name then
        [Effect.print (.lidClosed app), .system "echo mem > /sys/power/state 2>/dev/null",
          .print .lidOpen]
      else []), effect.isPlain = true := by
    intro app
    split
    · simp [Effect.isPlain, Message.isPower]
    · simp
  exact rule.andThen (fun state => (state, [.emit arrival.event]))
    (rule.still (suspended arrival.files.getActiveApp)) (rule.forward other state)

/-- Every event but those of the power key. -/
theorem handle (rule : HandlerRule arrival relation) (other : ¬ arrival.event.isPower)
    (state : State) : relation state (handle arrival state) := by
  unfold Watcher.handle
  dsimp only
  split
  · next power => exact absurd power other
  split
  · unfold handleHome
    split
    · exact rule.handleHomeDown state
    · split
      · exact rule.handleHomeUp state
      · exact rule.nothing rfl rfl
  · split
    · exact rule.handlePage other state
    · split
      · exact rule.handleLid other state
      · split
        · exact rule.forward other state
        · exact rule.nothing rfl rfl

end HandlerRule

end Nookobo.Watcher
