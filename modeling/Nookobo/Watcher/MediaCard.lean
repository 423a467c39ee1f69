import Nookobo.Watcher.Session

/-!
# When the media card is up, and what hiding it restores

`show_media_card` copies the screen behind the card into the backup when the card is not up
yet; `hide_media_card` copies it back. Media mode brings the card up and takes it down, but so
does a double tap of Home in reading mode bring it up, and nothing takes it down again before
media mode is left.

`CardWatch` follows a session with its passes numbered. `Backup` replays the calls among the
effects and so knows which pass the backup was taken in and which backups were put back;
`due` lists, for every media mode that was left, the pass in which the card had come up for
it. `mediaCard_exact` says that the card is up exactly in media mode or after a double tap
since media mode was last left, and that the backups put back are those that were due.
-/

namespace Nookobo.Watcher

open Nookobo.Semantics

/-! ## The backup behind the card -/

/-- The backup as the calls to show and to hide the card leave it, passes standing for the
screens that were there to be copied. -/
structure Backup where
  up : Bool := false
  taken : Option Nat := none
  restored : List (Option Nat) := []
deriving DecidableEq, Repr

/-- Only a card that comes up has its background copied. -/
def Backup.follow (moment : Nat) (backup : Backup) : Effect → Backup
  | .showMediaCard _ =>
      if backup.up then backup else { backup with up := true, taken := some moment }
  | .hideMediaCard =>
      { backup with up := false, restored := backup.restored ++ [backup.taken] }
  | _ => backup

/-- The effects that matter to the card: its two calls, and the double tap. -/
def Effect.isCard : Effect → Bool
  | .showMediaCard _ | .hideMediaCard => true
  | .print message => message == .homeDoubleTap
  | _ => false

/-- The part of a list of effects that matters to the card. -/
def cardCalls (effects : List Effect) : List Effect := effects.filter Effect.isCard

/-- No effects hold no call of the card. -/
@[simp] theorem cardCalls_nil : cardCalls [] = [] := rfl

/-- The card's calls in two lists are those of the one and then those of the other. -/
@[simp] theorem cardCalls_append (first second : List Effect) :
    cardCalls (first ++ second) = cardCalls first ++ cardCalls second :=
  List.filter_append ..

/-- The first effect counts if it is a call of the card or the double tap. -/
@[simp] theorem cardCalls_cons (effect : Effect) (rest : List Effect) :
    cardCalls (effect :: rest) =
      if effect.isCard then effect :: cardCalls rest else cardCalls rest :=
  List.filter_cons

/-- The other effects leave the backup alone. -/
theorem foldl_follow_cardCalls (moment : Nat) (effects : List Effect) (backup : Backup) :
    effects.foldl (Backup.follow moment) backup =
      (cardCalls effects).foldl (Backup.follow moment) backup := by
  induction effects generalizing backup with
  | nil => rfl
  | cons effect rest ih =>
      rw [List.foldl_cons, ih, cardCalls_cons]
      cases card : effect.isCard with
      | true => rfl
      | false =>
          have still : backup.follow moment effect = backup := by
            cases effect <;> first | rfl | simp [Effect.isCard] at card
          simp [still]

/-- The double tap survives the filter. -/
theorem doubleTap_mem_iff (effects : List Effect) :
    .print .homeDoubleTap ∈ effects ↔ .print .homeDoubleTap ∈ cardCalls effects := by
  simp [cardCalls, List.mem_filter, Effect.isCard]

/-! ## The observer -/

/-- A session with its passes numbered, and the card's past. -/
structure CardWatch where
  session : Session := { state := { fbMem := true, toastBackup := true, cardBackup := true } }
  passes : Nat := 0
  backup : Backup := {}
  /-- The pass in which media mode was last entered. -/
  entered : Option Nat := none
  /-- The first double tap since media mode was last left. -/
  tapped : Option Nat := none
  /-- For each media mode that was left, the pass in which the card had come up. -/
  due : List (Option Nat) := []

namespace CardWatch

/-- The pass in which the card came up. -/
def cameUp (watch : CardWatch) : Option Nat := watch.tapped.or watch.entered

/-- One more pass, with what it tells about the card written down. -/
def advance (watch : CardWatch) (input : Pass) : CardWatch :=
  let before := watch.session.state
  let outcome := pass before input
  let entering := !before.mediaMode && outcome.1.mediaMode
  let leaving := before.mediaMode && !outcome.1.mediaMode
  { session := watch.session.advance input
    passes := watch.passes + 1
    backup := outcome.2.foldl (Backup.follow watch.passes) watch.backup
    entered := if entering then some watch.passes else watch.entered
    tapped :=
      if leaving then none
      else if .print .homeDoubleTap ∈ outcome.2 then watch.tapped.or (some watch.passes)
      else watch.tapped
    due := if leaving then watch.due ++ [watch.cameUp] else watch.due }

/-- The card is up exactly in media mode or after a double tap since media mode was last
left, and each hiding restored the backup of the moment the card had come up. -/
structure Faithful (watch : CardWatch) : Prop where
  active : watch.session.state.cardActive =
    (watch.session.state.mediaMode || watch.tapped.isSome)
  restored : watch.backup.restored = watch.due

end CardWatch

/-- The button watcher from a start with the framebuffer mapped and its backups allocated. -/
def cardMachine : Machine CardWatch Pass where
  initial := {}
  step := CardWatch.advance

/-! ## What a pass can do to the card -/

/-- The variables the card depends on. -/
@[ext]
structure CardView where
  ready : Bool
  active : Bool
  media : Bool
deriving DecidableEq, Repr

/-- The card's part of the program's state. -/
@[simps]
def State.cardView (state : State) : CardView where
  ready := state.fbMem && state.cardBackup
  active := state.cardActive
  media := state.mediaMode

/-- Everything a pass can do to the card, with its calls. -/
inductive CardMove (before : CardView) : CardView → List Effect → Prop where
  | still : CardMove before before []
  /-- A double tap, which only reading mode knows. -/
  | tap (status : String) (reading : before.media = false) :
      CardMove before { before with active := true }
        [.print .homeDoubleTap, .showMediaCard status]
  /-- A button of media mode. -/
  | refresh (status : String) (mode : before.media = true) :
      CardMove before { before with active := true } [.showMediaCard status]
  | enter (status : String) (reading : before.media = false) :
      CardMove before { before with active := true, media := true } [.showMediaCard status]
  | leave (mode : before.media = true) :
      CardMove before { before with active := false, media := false }
        (if before.active then [.hideMediaCard] else [])

/-- No move takes the framebuffer or the backup away. -/
theorem CardMove.ready_eq {before after : CardView} {calls : List Effect}
    (move : CardMove before after calls) : after.ready = before.ready := by
  cases move <;> rfl

/-- A handler does something to the card that is a move. -/
def State.MovesCard (state : State) (outcome : State × List Effect) : Prop :=
  CardMove state.cardView outcome.1.cardView (cardCalls outcome.2)

/-- A handler leaves the card alone. -/
def State.KeepsCard (state : State) (outcome : State × List Effect) : Prop :=
  outcome.1.cardView = state.cardView ∧ cardCalls outcome.2 = []

namespace State

variable {state : State} {first : State × List Effect}
  {second : State → State × List Effect}

/-- Leaving the card alone is a move. -/
theorem KeepsCard.moves (keeps : state.KeepsCard first) : state.MovesCard first := by
  unfold MovesCard
  rw [keeps.1, keeps.2]
  exact .still

/-- Two handlers in a row that leave the card alone leave it alone. -/
theorem KeepsCard.andThen (keeps : state.KeepsCard first)
    (later : first.1.KeepsCard (second first.1)) :
    state.KeepsCard (andThen first second) := by
  refine ⟨later.1.trans keeps.1, ?_⟩
  rw [andThen_snd, cardCalls_append, keeps.2, later.2, List.append_nil]

/-- What follows a move without touching the card leaves it a move. -/
theorem MovesCard.andThen (moves : state.MovesCard first)
    (later : first.1.KeepsCard (second first.1)) :
    state.MovesCard (andThen first second) := by
  unfold MovesCard
  rw [andThen_fst, andThen_snd, cardCalls_append, later.1, later.2, List.append_nil]
  exact moves

/-- A handler that leaves the card alone may come before a move. -/
theorem MovesCard.after_keeps (keeps : state.KeepsCard first)
    (moves : first.1.MovesCard (second first.1)) :
    state.MovesCard (Watcher.andThen first second) := by
  unfold MovesCard at moves ⊢
  rw [andThen_fst, andThen_snd, cardCalls_append, keeps.2, List.nil_append, ← keeps.1]
  exact moves

/-- With framebuffer and backup there, opening them does nothing. -/
theorem fbInit_of_ready (outcome : FbOutcome) (ready : state.cardView.ready = true) :
    state.fbInit outcome = state := by
  simp only [cardView_ready, Bool.and_eq_true] at ready
  simp [fbInit, ready.1]

end State

/-! ## Overlay calls -/

section Overlays

variable {state : State} (ready : state.cardView.ready = true)

include ready

/-- A toast leaves the card alone. -/
theorem showToast_keepsCard (title subtitle : String) (now : UInt64) (outcome : FbOutcome) :
    state.KeepsCard (showToast title subtitle now outcome state) := by
  simp only [showToast, State.fbInit_of_ready outcome ready]
  split <;> exact ⟨rfl, rfl⟩

/-- Showing the card makes it active and is one call. -/
theorem showMediaCard_card (status : String) (outcome : FbOutcome) :
    (showMediaCard status outcome state).1.cardView = { state.cardView with active := true } ∧
      cardCalls (showMediaCard status outcome state).2 = [.showMediaCard status] := by
  have mapped : state.fbMem = true := (Bool.and_eq_true_iff.mp ready).1
  simp only [showMediaCard, State.fbInit_of_ready outcome ready, mapped, Bool.not_true,
    Bool.false_eq_true, if_false]
  exact ⟨by ext <;> simp [mapped], rfl⟩

/-- Hiding the card makes it inactive and is one call, if it was up. -/
theorem hideMediaCard_card :
    (hideMediaCard state).1.cardView = { state.cardView with active := false } ∧
      cardCalls (hideMediaCard state).2 =
        if state.cardView.active then [.hideMediaCard] else [] := by
  obtain ⟨mapped, allocated⟩ := Bool.and_eq_true_iff.mp ready
  cases active : state.cardActive with
  | true => simp [hideMediaCard, State.cardView, active, mapped, allocated, Effect.isCard]
  | false => simp [hideMediaCard, State.cardView, active]

/-- Leaving media mode is a move: the card goes if it was up. -/
theorem leaveMediaMode_movesCard : state.MovesCard (leaveMediaMode state) := by
  unfold State.MovesCard leaveMediaMode
  split
  · next mode =>
      obtain ⟨view, calls⟩ := hideMediaCard_card ready
      rw [calls]
      have left : ({ (hideMediaCard state).1 with mediaMode := false } : State).cardView =
          { state.cardView with active := false, media := false } :=
        congrArg (fun view : CardView => { view with media := false }) view
      rw [left]
      exact .leave mode
  · exact .still

/-- Leaving media mode keeps framebuffer and backup. -/
theorem leaveMediaMode_ready : (leaveMediaMode state).1.cardView.ready = true :=
  (leaveMediaMode_movesCard ready).ready_eq.trans ready

end Overlays

/-! ## The loop top -/

/-- Hiding the toast leaves the card alone. -/
theorem hideToast_keepsCard (state : State) : state.KeepsCard (hideToast state) := by
  unfold hideToast
  split <;> exact ⟨rfl, rfl⟩

/-- A stage of the loop top leaves the card alone. -/
def Sweep.KeepsCard (before after : Sweep) : Prop :=
  after.state.cardView = before.state.cardView ∧
    cardCalls after.effects = cardCalls before.effects

/-- A shorter timeout leaves the card alone. -/
theorem Sweep.tighten_keepsCard (sweep : Sweep) (rem : Int) :
    sweep.KeepsCard (sweep.tighten rem) := by
  obtain ⟨sameState, sameEffects⟩ := sweep.tighten_state rem
  exact ⟨by rw [sameState], by rw [sameEffects]⟩

/-- A stage leaves the card alone when its action does. -/
theorem Sweep.Stage.keepsCard {sweep fired after : Sweep} (stage : sweep.Stage fired after)
    (fires : sweep.KeepsCard fired) : sweep.KeepsCard after := by
  cases stage with
  | fires => exact fires
  | waits rem => exact sweep.tighten_keepsCard rem
  | idle => exact ⟨rfl, rfl⟩

/-- The toast's stage leaves the card alone. -/
theorem Sweep.toast_keepsCard (now : UInt64) (sweep : Sweep) :
    sweep.KeepsCard (sweep.toast now) := by
  obtain ⟨view, calls⟩ := hideToast_keepsCard sweep.state
  exact (sweep.toast_stage now).keepsCard ⟨view, by simp [calls]⟩

/-- The power key's stage leaves the card alone. -/
theorem Sweep.power_keepsCard (now : UInt64) (sweep : Sweep) :
    sweep.KeepsCard (sweep.power now) := by
  refine (sweep.power_stage now).keepsCard ⟨rfl, ?_⟩
  simp [emitKeyClick, emitKey, emitSyn, Effect.isCard]

/-- The long press's stage leaves the card alone. -/
theorem Sweep.longPress_keepsCard (now : UInt64) (sweep : Sweep) :
    sweep.KeepsCard (sweep.longPress now) := by
  refine (sweep.longPress_stage now).keepsCard ⟨rfl, ?_⟩
  simp [emitKey, emitSyn, Effect.isCard]

/-- The single tap's stage leaves the card alone. -/
theorem Sweep.singleTap_keepsCard (now : UInt64) (sweep : Sweep) :
    sweep.KeepsCard (sweep.singleTap now) := by
  refine (sweep.singleTap_stage now).keepsCard ⟨rfl, ?_⟩
  simp [emitKeyClick, emitKey, emitSyn, Effect.isCard]

/-- The loop top never touches the card. -/
theorem sweep_keepsCard (now : UInt64) (state : State) :
    state.KeepsCard ((sweep now state).state, (sweep now state).effects) := by
  obtain ⟨toastView, toastCalls⟩ := Sweep.toast_keepsCard now { state := state : Sweep }
  obtain ⟨powerView, powerCalls⟩ :=
    Sweep.power_keepsCard now ({ state := state : Sweep }.toast now)
  obtain ⟨longView, longCalls⟩ :=
    Sweep.longPress_keepsCard now (({ state := state : Sweep }.toast now).power now)
  obtain ⟨singleView, singleCalls⟩ := Sweep.singleTap_keepsCard now
    ((({ state := state : Sweep }.toast now).power now).longPress now)
  refine ⟨?_, ?_⟩
  · exact ((singleView.trans longView).trans powerView).trans toastView
  · exact ((singleCalls.trans longCalls).trans powerCalls).trans toastCalls

/-! ## The event handlers -/

section Handlers

variable {state : State} (ready : state.cardView.ready = true)

include ready

/-- A call of the card in media mode. -/
theorem showMediaCard_movesCard (status : String) (outcome : FbOutcome)
    (mode : state.mediaMode = true) : state.MovesCard (showMediaCard status outcome state) := by
  obtain ⟨view, calls⟩ := showMediaCard_card ready status outcome
  unfold State.MovesCard
  rw [view, calls]
  exact .refresh status mode

/-- A button of media mode brings the card up to date. -/
theorem mediaButton_movesCard (message : Message) (command status : String)
    (outcome : FbOutcome) (mode : state.mediaMode = true) (single : message ≠ .homeDoubleTap) :
    state.MovesCard (mediaButton message command status outcome state) := by
  have keeps : state.KeepsCard (state, [.print message, .system command]) :=
    ⟨rfl, by simp [Effect.isCard, single]⟩
  exact .after_keeps keeps (showMediaCard_movesCard ready status outcome mode)

/-- In media mode a playback toggle brings the card up to date. -/
theorem togglePlayback_movesCard (message : Message) (outcome : FbOutcome)
    (mode : state.mediaMode = true) (single : message ≠ .homeDoubleTap) :
    state.MovesCard (togglePlayback message outcome state) :=
  mediaButton_movesCard ready message _ _ outcome mode single

/-- Each of the four buttons of media mode is a move. -/
theorem handleMediaKey_movesCard (arrival : Arrival) (mode : state.mediaMode = true) :
    state.MovesCard (handleMediaKey arrival state) := by
  unfold handleMediaKey
  split
  · exact mediaButton_movesCard ready _ _ _ _ mode (by decide)
  · split
    · exact mediaButton_movesCard ready _ _ _ _ mode (by decide)
    · split
      · exact mediaButton_movesCard ready _ _ _ _ mode (by decide)
      · split
        · exact togglePlayback_movesCard ready _ _ mode (by decide)
        · exact CardMove.still

/-- The tail of a chord that switches applications leaves the card alone. -/
theorem switchTo_keepsCard (message : Message) (title subtitle : String) (app : App)
    (kill : String) (arrival : Arrival) (single : message ≠ .homeDoubleTap) :
    state.KeepsCard (switchTo message title subtitle app kill arrival state) := by
  have printed : state.KeepsCard (state, [.print message]) :=
    ⟨rfl, by simp [Effect.isCard, single]⟩
  refine printed.andThen ?_
  exact (showToast_keepsCard ready title subtitle arrival.now arrival.fb).andThen ⟨rfl, rfl⟩

/-- The top left chord is a move. -/
theorem chordTopLeft_movesCard (arrival : Arrival) :
    state.MovesCard (chordTopLeft arrival state) := by
  have left := leaveMediaMode_ready ready
  refine (leaveMediaMode_movesCard ready).andThen ?_
  split
  · have printed : (leaveMediaMode state).1.KeepsCard
        ((leaveMediaMode state).1, [.print .chordKoreaderFrontlight]) := ⟨rfl, rfl⟩
    refine printed.andThen ?_
    exact (showToast_keepsCard left _ _ arrival.now arrival.fb).andThen ⟨rfl, rfl⟩
  · exact switchTo_keepsCard left _ _ _ _ _ arrival (by decide)

/-- The bottom left chord is a move. -/
theorem chordBottomLeft_movesCard (arrival : Arrival) :
    state.MovesCard (chordBottomLeft arrival state) := by
  have left := leaveMediaMode_ready ready
  refine (leaveMediaMode_movesCard ready).andThen ?_
  split
  · have printed : (leaveMediaMode state).1.KeepsCard
        ((leaveMediaMode state).1, [.print .chordPlatoFrontlight]) := ⟨rfl, rfl⟩
    refine printed.andThen ?_
    exact (showToast_keepsCard left _ _ arrival.now arrival.fb).andThen ⟨rfl, rfl⟩
  · exact switchTo_keepsCard left _ _ _ _ _ arrival (by decide)

/-- The top right chord is a move. -/
theorem chordTopRight_movesCard (arrival : Arrival) :
    state.MovesCard (chordTopRight arrival state) := by
  have left := leaveMediaMode_ready ready
  refine (leaveMediaMode_movesCard ready).andThen ?_
  split
  · exact switchTo_keepsCard left _ _ _ _ _ arrival (by decide)
  · exact switchTo_keepsCard left _ _ _ _ _ arrival (by decide)

/-- The bottom right chord enters or leaves media mode. -/
theorem chordBottomRight_movesCard (arrival : Arrival) :
    state.MovesCard (chordBottomRight arrival state) := by
  unfold State.MovesCard
  cases mode : state.mediaMode with
  | false =>
      have taken : chordBottomRight arrival state =
          andThen ({ state with mediaMode := true }, [.print .chordMediaActive])
            (showMediaCard "PLAYBACK ACTIVE: CONTROLS READY" arrival.fb) := by
        simp [chordBottomRight, mode]
      have toggled : ({ state with mediaMode := true } : State).cardView.ready = true := ready
      obtain ⟨view, calls⟩ :=
        showMediaCard_card toggled "PLAYBACK ACTIVE: CONTROLS READY" arrival.fb
      rw [taken, andThen_fst, andThen_snd, cardCalls_append, view, calls]
      exact .enter _ mode
  | true =>
      have taken : chordBottomRight arrival state =
          andThen ({ state with mediaMode := false }, [.print .chordMediaBackground])
            fun state => andThen (hideMediaCard state)
              (showToast "READING MODE RESTORED"
                "Audio running in background (Side buttons = Page turns)" arrival.now
                arrival.fb) := by
        simp [chordBottomRight, mode]
      have toggled : ({ state with mediaMode := false } : State).cardView.ready = true := ready
      obtain ⟨view, calls⟩ := hideMediaCard_card toggled
      have hidden :
          (hideMediaCard { state with mediaMode := false }).1.cardView.ready = true := by
        rw [view]
        exact ready
      have toast := showToast_keepsCard hidden "READING MODE RESTORED"
        "Audio running in background (Side buttons = Page turns)" arrival.now arrival.fb
      rw [taken, andThen_fst, andThen_fst, andThen_snd, andThen_snd, cardCalls_append,
        cardCalls_append, toast.1, toast.2, view, calls, List.append_nil]
      exact .leave mode

/-- Every chord is a move. -/
theorem handleChord_movesCard (arrival : Arrival) :
    state.MovesCard (handleChord arrival state) := by
  have same : ({ state with homeComboConsumed := true, homePendingSingle := false }
      : State).cardView.ready = true := ready
  unfold handleChord
  dsimp only
  split
  · exact chordTopLeft_movesCard same arrival
  · split
    · exact chordBottomLeft_movesCard same arrival
    · split
      · exact chordTopRight_movesCard same arrival
      · split
        · exact chordBottomRight_movesCard same arrival
        · exact CardMove.still

/-- A page key is a move, by chord, by button or by leaving the card alone. -/
theorem handlePage_movesCard (arrival : Arrival) :
    state.MovesCard (handlePage arrival state) := by
  unfold handlePage
  split
  · split
    · exact handleChord_movesCard ready arrival
    · split
      · next mode => exact handleMediaKey_movesCard ready arrival mode
      · exact CardMove.still
  · split
    · split <;> exact CardMove.still
    · exact CardMove.still

/-- A tap is pending only in reading mode, so only there can it become a double tap. -/
theorem handleHomeDown_movesCard (arrival : Arrival)
    (quiet : state.homePendingSingle = true → state.mediaMode = false) :
    state.MovesCard (handleHomeDown arrival state) := by
  unfold State.MovesCard handleHomeDown
  dsimp only
  split
  · next tapped =>
      have reading : state.mediaMode = false := by
        refine quiet ?_
        simp only [isDoubleTap, Bool.and_eq_true] at tapped
        exact tapped.1.1
      have same : ({ state with homePendingSingle := false, homeDoubleConsumed := true }
          : State).cardView.ready = true := ready
      obtain ⟨view, calls⟩ := showMediaCard_card same "PLAYBACK: PLAY / PAUSE TOGGLED  >||"
        arrival.fb
      have tapCalls : cardCalls (togglePlayback .homeDoubleTap arrival.fb
          { state with homePendingSingle := false, homeDoubleConsumed := true }).2 =
          [.print .homeDoubleTap, .showMediaCard "PLAYBACK: PLAY / PAUSE TOGGLED  >||"] := by
        rw [togglePlayback, andThen_snd, cardCalls_append, calls]
        rfl
      rw [tapCalls]
      exact view ▸ .tap _ reading
  · exact .still

/-- A release of Home is a move; only a tap in media mode touches the card. -/
theorem handleHomeUp_movesCard (arrival : Arrival) :
    state.MovesCard (handleHomeUp arrival state) := by
  have same : ({ state with homeDown := false } : State).cardView.ready = true := ready
  unfold handleHomeUp
  dsimp only
  split
  · exact CardMove.still
  · split
    · exact CardMove.still
    · split
      · exact CardMove.still
      · split
        · next mode => exact togglePlayback_movesCard same _ _ mode (by decide)
        · exact CardMove.still

/-- Every event is a move, when no tap is pending in media mode. -/
theorem handle_movesCard (arrival : Arrival)
    (quiet : state.homePendingSingle = true → state.mediaMode = false) :
    state.MovesCard (handle arrival state) := by
  unfold handle
  dsimp only
  split
  · unfold handlePower
    split
    · split <;> exact CardMove.still
    · exact CardMove.still
  · split
    · unfold handleHome
      split
      · exact handleHomeDown_movesCard ready arrival quiet
      · split
        · exact handleHomeUp_movesCard ready arrival
        · exact CardMove.still
    · split
      · exact handlePage_movesCard ready arrival
      · split
        · refine State.KeepsCard.moves ⟨rfl, ?_⟩
          unfold handleLid
          dsimp only
          split <;> rfl
        · split <;> exact CardMove.still

end Handlers

/-! ## A pending tap means reading mode -/

namespace HomeView

variable {view : HomeView}

/-- A tap is pending only in reading mode. -/
def Quiet (view : HomeView) : Prop := view.pending = true → view.media = false

/-- The loop top leaves no tap pending in media mode. -/
theorem Quiet.sweep (quiet : view.Quiet) (now : UInt64) : (view.sweep now).1.Quiet := by
  unfold HomeView.sweep sweepLong sweepSingle
  intro pending
  split at pending <;> split at pending <;> simp_all [Quiet]

/-- An event leaves no tap pending in media mode. -/
theorem Quiet.handle (quiet : view.Quiet) (arrival : Arrival) :
    (view.handle arrival).1.Quiet := by
  unfold HomeView.handle
  split
  · split
    · exact fun pending => absurd pending (by simp [homeDown])
    · split
      · obtain ⟨down, combo, pending, long, double, media, downTime, singleTime⟩ := view
        cases combo <;> cases long <;> cases double <;> cases media <;> simp_all [Quiet, homeUp]
      · exact quiet
  · split
    · rcases page_cases arrival view with ⟨-, -, chorded⟩ | ⟨same, -⟩
      · rw [chorded]
        exact fun pending => absurd pending (by simp [chord])
      · rw [same]
        exact quiet
    · exact quiet

end HomeView

/-- Every pass of the main loop makes a move of the card. -/
theorem pass_movesCard {state : State} (ready : state.cardView.ready = true)
    (quiet : state.homeView.Quiet) (input : Pass) : state.MovesCard (pass state input) := by
  have top := sweep_keepsCard input.top state
  unfold pass
  cases input.arrival with
  | none => exact top.moves
  | some arrival =>
      have stillReady : (sweep input.top state).state.cardView.ready = true := by
        rw [top.1]
        exact ready
      have stillQuiet : (sweep input.top state).state.homeView.Quiet := by
        rw [(sweep_homeView input.top state).1]
        exact quiet.sweep input.top
      exact .after_keeps top (handle_movesCard stillReady arrival stillQuiet)

/-- A pass leaves no tap pending in media mode. -/
theorem pass_quiet {state : State} (quiet : state.homeView.Quiet) (input : Pass) :
    (pass state input).1.homeView.Quiet := by
  rw [(pass_homeView state input).1]
  unfold HomeView.pass
  cases input.arrival with
  | none => exact quiet.sweep input.top
  | some arrival => exact (quiet.sweep input.top).handle arrival

/-! ## The card's past -/

/-- What the observer keeps, with the card's variables for the program's state. -/
structure CardPast where
  view : CardView
  backup : Backup
  entered : Option Nat
  tapped : Option Nat
  due : List (Option Nat)

namespace CardPast

/-- What the observer writes down for a move. -/
def move (past : CardPast) (moment : Nat) (after : CardView) (calls : List Effect) : CardPast where
  view := after
  backup := calls.foldl (Backup.follow moment) past.backup
  entered := if !past.view.media && after.media then some moment else past.entered
  tapped :=
    if past.view.media && !after.media then none
    else if .print .homeDoubleTap ∈ calls then past.tapped.or (some moment)
    else past.tapped
  due :=
    if past.view.media && !after.media then past.due ++ [past.tapped.or past.entered]
    else past.due

/-- While the card is up the backup is the one taken when it came up. -/
structure Sound (past : CardPast) : Prop where
  active : past.view.active = (past.view.media || past.tapped.isSome)
  up : past.backup.up = past.view.active
  taken : past.view.active = true → past.backup.taken = past.tapped.or past.entered
  restored : past.backup.restored = past.due

/-- A move keeps the card's past sound; in reading mode only a first tap takes a backup. -/
theorem Sound.move {past : CardPast} (sound : past.Sound) (moment : Nat) {after : CardView}
    {calls : List Effect} (made : CardMove past.view after calls) :
    (past.move moment after calls).Sound := by
  obtain ⟨⟨ready, active, media⟩, ⟨up, taken, restored⟩, entered, tapped, due⟩ := past
  obtain ⟨sameActive, sameUp, sameTaken, sameRestored⟩ := sound
  dsimp only at sameActive sameUp sameTaken sameRestored
  subst sameUp sameRestored
  cases made with
  | still =>
      have stays : (media && !media) = false := by cases media <;> rfl
      have stays' : (!media && media) = false := by cases media <;> rfl
      constructor <;> simp_all [CardPast.move]
  | tap status reading =>
      dsimp only at reading
      subst reading
      -- in reading mode the card is up exactly when a tap came before
      cases tapped with
      | none => constructor <;> simp_all [CardPast.move, Backup.follow]
      | some first => constructor <;> simp_all [CardPast.move, Backup.follow]
  | refresh status mode =>
      dsimp only at mode
      subst mode
      constructor <;> simp_all [CardPast.move, Backup.follow]
  | enter status reading =>
      dsimp only at reading
      subst reading
      cases tapped with
      | none => constructor <;> simp_all [CardPast.move, Backup.follow]
      | some first => constructor <;> simp_all [CardPast.move, Backup.follow]
  | leave mode =>
      dsimp only at mode
      subst mode
      constructor <;> simp_all [CardPast.move, Backup.follow]

end CardPast

namespace CardWatch

/-- The observer's notes with the card's variables. -/
def past (watch : CardWatch) : CardPast where
  view := watch.session.state.cardView
  backup := watch.backup
  entered := watch.entered
  tapped := watch.tapped
  due := watch.due

/-- The observer does not disturb the program. -/
theorem advance_state (watch : CardWatch) (input : Pass) :
    (watch.advance input).session.state = (pass watch.session.state input).1 := by
  obtain ⟨top, arrival⟩ := input
  cases arrival <;> rfl

/-- The observer makes the move the pass makes. -/
theorem advance_past (watch : CardWatch) (input : Pass) :
    (watch.advance input).past =
      watch.past.move watch.passes (pass watch.session.state input).1.cardView
        (cardCalls (pass watch.session.state input).2) := by
  unfold past CardPast.move
  rw [advance_state, ← foldl_follow_cardCalls]
  simp only [← doubleTap_mem_iff]
  rfl

/-- What every pass preserves: framebuffer and backup, no tap pending in media mode, a sound
past. -/
structure Invariant (watch : CardWatch) : Prop where
  ready : watch.session.state.cardView.ready = true
  quiet : watch.session.state.homeView.Quiet
  sound : watch.past.Sound

/-- The invariant gives both halves of what is asked of the card. -/
theorem Invariant.faithful {watch : CardWatch} (holds : watch.Invariant) : watch.Faithful :=
  ⟨holds.sound.active, holds.sound.restored⟩

/-- A pass preserves the invariant. -/
theorem Invariant.advance {watch : CardWatch} (holds : watch.Invariant) (input : Pass) :
    (watch.advance input).Invariant := by
  have made := pass_movesCard holds.ready holds.quiet input
  refine ⟨?_, ?_, ?_⟩
  · rw [advance_state]
    exact made.ready_eq.trans holds.ready
  · rw [advance_state]
    exact pass_quiet holds.quiet input
  · rw [advance_past]
    exact holds.sound.move watch.passes made

end CardWatch

/-- Along every schedule the card is up exactly in media mode or after a double tap since
media mode was last left, and each hiding of the card restored the backup taken when the card
had come up. -/
theorem mediaCard_exact (inputs : List Pass) :
    cardMachine.Always CardWatch.Faithful cardMachine.initial inputs := by
  refine Machine.always_of_invariant CardWatch.Invariant (fun _ => CardWatch.Invariant.faithful)
    (fun _ input holds => holds.advance input) ?_ inputs
  have unarmed : cardMachine.initial.session.state.homeView.Quiet := by
    rintro ⟨⟩
  have fresh : cardMachine.initial.past.Sound := by
    refine ⟨rfl, rfl, ?_, rfl⟩
    rintro ⟨⟩
  exact ⟨rfl, unarmed, fresh⟩

/-- Two taps of Home in reading mode. -/
def doubleTapping : List Pass :=
  [.key 0 keyHome 1 .koreader, .key 100 keyHome 0 .koreader, .key 300 keyHome 1 .koreader]

/-- A double tap in reading mode brings the card up outside media mode. -/
theorem mediaCard_up_in_reading_mode :
    cardMachine.StepsMeet (fun watch => watch.session.Physical) cardMachine.initial
        doubleTapping ∧
      (readings doubleTapping).Pairwise (· ≤ ·) ∧
      ¬ cardMachine.Always
        (fun watch => watch.session.state.cardActive = watch.session.state.mediaMode)
        cardMachine.initial doubleTapping := by
  refine ⟨by decide, by decide, by decide⟩

end Nookobo.Watcher
