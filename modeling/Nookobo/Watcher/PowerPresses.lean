import Nookobo.Watcher.Handlers
import Nookobo.Watcher.Session

/-!
# Every press of the power key

A press of the power key waits for 400 ms: a second press makes a double tap
of the two, otherwise the loop top turns it into a click. `PowerLedger` numbers
the presses and writes down which of them each click and each frontlight toggle
is made of. The loop top and the handler look at the clock separately, and a
press read after the deadline that the loop top before it still saw ahead takes
the place of the press that was waiting. `power_presses_accounted` says that
this is the only way a press is lost.
-/

namespace Nookobo.Watcher

open Nookobo.Semantics

/-! ## The two clock readings of a pass -/

/-- What the main loop does with one reading of the clock. -/
inductive Moment where
  | loopTop (now : UInt64)
  | event (arrival : Arrival)
deriving DecidableEq, Repr

/-- What the main loop does at a moment. -/
def Moment.act (state : State) : Moment → State × List Effect
  | .loopTop now => ((sweep now state).state, (sweep now state).effects)
  | .event arrival => handle arrival state

/-- The moments of a schedule, in order. -/
def moments (inputs : List Pass) : List Moment :=
  inputs.flatMap fun input => .loopTop input.top :: (input.arrival.map Moment.event).toList

/-! ## Clicks and toggles -/

/-- The command that toggles the frontlight. -/
def toggleFrontlight : Effect := .system "/opt/scripts/toggle_frontlight.sh &"

/-- The `KEY_POWER` clicks among some effects. -/
def clicks (effects : List Effect) : Nat := effects.count (emitKey keyPower 1)

/-- The frontlight toggles among some effects. -/
def toggles (effects : List Effect) : Nat := effects.count toggleFrontlight

/-- No effects hold no click. -/
@[simp] theorem clicks_nil : clicks [] = 0 := rfl

/-- No effects hold no toggle. -/
@[simp] theorem toggles_nil : toggles [] = 0 := rfl

/-- The clicks in two lists add up. -/
@[simp] theorem clicks_append (first second : List Effect) :
    clicks (first ++ second) = clicks first + clicks second :=
  List.count_append

/-- The toggles in two lists add up. -/
@[simp] theorem toggles_append (first second : List Effect) :
    toggles (first ++ second) = toggles first + toggles second :=
  List.count_append

/-- Neither the power key's variables nor its effects. -/
def State.KeepsPower (state : State) (outcome : State × List Effect) : Prop :=
  outcome.1.powerView = state.powerView ∧ clicks outcome.2 = 0 ∧ toggles outcome.2 = 0

/-- Plain effects hold neither clicks nor toggles. -/
theorem clicks_plain {effects : List Effect}
    (plain : ∀ effect ∈ effects, effect.isPlain = true) :
    clicks effects = 0 ∧ toggles effects = 0 := by
  constructor
  · refine List.count_eq_zero.mpr fun member => ?_
    exact absurd (plain _ member) (by decide)
  · refine List.count_eq_zero.mpr fun member => ?_
    exact absurd (plain _ member) (by decide)

/-- Opening the framebuffer leaves the power key alone. -/
theorem fbInit_powerView (outcome : FbOutcome) (state : State) :
    (state.fbInit outcome).powerView = state.powerView := by
  unfold State.fbInit
  split
  · rfl
  · split <;> rfl

/-- Showing a toast leaves the power key alone. -/
theorem showToast_keepsPower (title subtitle : String) (now : UInt64) (outcome : FbOutcome)
    (state : State) : state.KeepsPower (showToast title subtitle now outcome state) := by
  have view := fbInit_powerView outcome state
  unfold showToast
  dsimp only
  split
  · exact ⟨view, rfl, rfl⟩
  · exact ⟨view, rfl, rfl⟩

/-- Showing the card leaves the power key alone. -/
theorem showMediaCard_keepsPower (status : String) (outcome : FbOutcome) (state : State) :
    state.KeepsPower (showMediaCard status outcome state) := by
  have view := fbInit_powerView outcome state
  unfold showMediaCard
  dsimp only
  split
  · exact ⟨view, rfl, rfl⟩
  · exact ⟨view, rfl, rfl⟩

/-- Hiding the toast leaves the power key alone. -/
theorem hideToast_keepsPower (state : State) : state.KeepsPower (hideToast state) := by
  unfold hideToast
  split
  · exact ⟨rfl, rfl, rfl⟩
  · exact ⟨rfl, rfl, rfl⟩

/-- Hiding the card leaves the power key alone. -/
theorem hideMediaCard_keepsPower (state : State) : state.KeepsPower (hideMediaCard state) := by
  unfold hideMediaCard
  split
  · exact ⟨rfl, rfl, rfl⟩
  · exact ⟨rfl, rfl, rfl⟩

/-- The rule by which a handler leaves the power key alone. -/
theorem keepsPower_rule (arrival : Arrival) : HandlerRule arrival State.KeepsPower where
  andThen := by
    rintro state first second ⟨view, noClick, noToggle⟩ ⟨view', noClick', noToggle'⟩
    refine ⟨view'.trans view, ?_, ?_⟩
    · simp [noClick, noClick']
    · simp [noToggle, noToggle']
  plain := fun power _ plain => ⟨power, clicks_plain plain⟩
  showToast := fun title subtitle state =>
    showToast_keepsPower title subtitle arrival.now arrival.fb state
  showMediaCard := fun status state => showMediaCard_keepsPower status arrival.fb state
  hideMediaCard := hideMediaCard_keepsPower

/-! ## What a moment does to the power key -/

/-- The power key goes down. -/
def Moment.isPowerPress : Moment → Bool
  | .loopTop _ => false
  | .event arrival => decide arrival.event.isPower && decide (arrival.event.value = 1)

/-- The moment is a press that finds another one waiting and comes within its 400 ms. -/
def Moment.Completes (state : State) : Moment → Prop
  | .loopTop _ => False
  | .event arrival => state.powerPending = true ∧
      arrival.now - state.powerDownTime ≤ powerDoubleClickMs

/-- All that a moment can do to the waiting press, with its clicks and toggles. -/
inductive PowerMove (state : State) (moment : Moment) (outcome : State × List Effect) : Prop where
  | keeps (other : moment.isPowerPress = false) (kept : state.KeepsPower outcome)
  | click (other : moment.isPowerPress = false) (waiting : state.powerPending = true)
      (done : outcome.1.powerPending = false) (clicked : clicks outcome.2 = 1)
      (noToggle : toggles outcome.2 = 0)
  | toggle (press : moment.isPowerPress = true) (completes : moment.Completes state)
      (waiting : state.powerPending = true) (done : outcome.1.powerPending = false)
      (noClick : clicks outcome.2 = 0) (toggled : toggles outcome.2 = 1)
  | arm (press : moment.isPowerPress = true) (alone : ¬ moment.Completes state)
      (waits : outcome.1.powerPending = true) (noClick : clicks outcome.2 = 0)
      (noToggle : toggles outcome.2 = 0)

/-- A stage of the loop top that leaves the power key alone. -/
def Sweep.KeepsPower (before after : Sweep) : Prop :=
  after.state.powerView = before.state.powerView ∧
    clicks after.effects = clicks before.effects ∧
      toggles after.effects = toggles before.effects

/-- A shorter timeout leaves the power key alone. -/
theorem Sweep.tighten_keepsPower (sweep : Sweep) (rem : Int) :
    sweep.KeepsPower (sweep.tighten rem) := by
  obtain ⟨sameState, sameEffects⟩ := sweep.tighten_state rem
  exact ⟨by rw [sameState], by rw [sameEffects], by rw [sameEffects]⟩

/-- A stage leaves the power key alone when its action does. -/
theorem Sweep.Stage.keepsPower {sweep fired after : Sweep} (stage : sweep.Stage fired after)
    (fires : sweep.KeepsPower fired) : sweep.KeepsPower after := by
  cases stage with
  | fires => exact fires
  | waits rem => exact sweep.tighten_keepsPower rem
  | idle => exact ⟨rfl, rfl, rfl⟩

/-- Two stages in a row that leave the power key alone leave it alone. -/
theorem Sweep.KeepsPower.trans {first second third : Sweep} (one : first.KeepsPower second)
    (two : second.KeepsPower third) : first.KeepsPower third :=
  ⟨two.1.trans one.1, two.2.1.trans one.2.1, two.2.2.trans one.2.2⟩

/-- The toast's stage leaves the power key alone. -/
theorem Sweep.toast_keepsPower (now : UInt64) (sweep : Sweep) :
    sweep.KeepsPower (sweep.toast now) := by
  obtain ⟨view, noClick, noToggle⟩ := hideToast_keepsPower sweep.state
  refine (sweep.toast_stage now).keepsPower ⟨view, ?_, ?_⟩
  · simp [noClick]
  · simp [noToggle]

/-- The two Home stages together. -/
theorem Sweep.home_keepsPower (now : UInt64) (sweep : Sweep) :
    sweep.KeepsPower ((sweep.longPress now).singleTap now) := by
  have long : sweep.KeepsPower (sweep.longPress now) := by
    refine (sweep.longPress_stage now).keepsPower ⟨rfl, ?_, ?_⟩
    · exact clicks_append _ _
    · exact toggles_append _ _
  refine long.trans ?_
  refine ((sweep.longPress now).singleTap_stage now).keepsPower ⟨rfl, ?_, ?_⟩
  · exact clicks_append _ _
  · exact toggles_append _ _

/-- The power stage makes the click of a waiting press, or leaves it. -/
theorem Sweep.power_cases (now : UInt64) (sweep : Sweep) :
    (sweep.state.powerPending = true ∧ (sweep.power now).state.powerPending = false ∧
      clicks (sweep.power now).effects = clicks sweep.effects + 1 ∧
      toggles (sweep.power now).effects = toggles sweep.effects) ∨
    sweep.KeepsPower (sweep.power now) := by
  by_cases waiting : sweep.state.powerPending = true
  · by_cases due :
      remaining (sweep.state.powerDownTime + powerDoubleClickMs) now ≤ 0
    · simp only [Sweep.power, waiting, due, if_true]
      exact .inl ⟨trivial, trivial, clicks_append _ _, toggles_append _ _⟩
    · simp only [Sweep.power, waiting, due, if_true, if_false]
      exact .inr (sweep.tighten_keepsPower _)
  · simp only [Sweep.power, waiting]
    exact .inr ⟨rfl, rfl, rfl⟩

/-- The loop top makes the click of a waiting press or leaves the power key alone. -/
theorem loopTop_powerMove (state : State) (now : UInt64) :
    PowerMove state (.loopTop now) (Moment.act state (.loopTop now)) := by
  have toast := Sweep.toast_keepsPower now { state := state : Sweep }
  have home := Sweep.home_keepsPower now (({ state := state : Sweep }.toast now).power now)
  rcases Sweep.power_cases now ({ state := state : Sweep }.toast now) with
    ⟨waiting, done, clicked, noToggle⟩ | kept
  · refine .click rfl ?_ ?_ ?_ ?_
    · exact (congrArg PowerView.pending toast.1).symm.trans waiting
    · exact (congrArg PowerView.pending home.1).trans done
    · exact home.2.1.trans (clicked.trans (congrArg (· + 1) toast.2.1))
    · exact home.2.2.trans (noToggle.trans toast.2.2)
  · exact .keeps rfl ((toast.trans kept).trans home)

/-- A power event is counted as what it is: a first press, a second one, or a release. -/
theorem handlePower_powerMove (state : State) (arrival : Arrival)
    (power : arrival.event.isPower) :
    PowerMove state (.event arrival) (handlePower arrival state) := by
  unfold handlePower
  split
  · next pressed =>
    have press : Moment.isPowerPress (.event arrival) = true := by
      simp [Moment.isPowerPress, power, pressed]
    split
    · next completes =>
      rw [Bool.and_eq_true, decide_eq_true_eq] at completes
      exact .toggle press completes completes.1 rfl rfl rfl
    · next alone =>
      rw [Bool.and_eq_true, decide_eq_true_eq] at alone
      exact .arm press alone rfl rfl rfl
  · next other =>
    exact .keeps (by simp [Moment.isPowerPress, other]) ⟨rfl, rfl, rfl⟩

/-- Every moment is one of the moves of the power key. -/
theorem act_powerMove (state : State) (moment : Moment) :
    PowerMove state moment (moment.act state) := by
  cases moment with
  | loopTop now => exact loopTop_powerMove state now
  | event arrival =>
      by_cases power : arrival.event.isPower
      · have handled : handle arrival state = handlePower arrival state := if_pos power
        rw [Moment.act, handled]
        exact handlePower_powerMove state arrival power
      · refine .keeps ?_ ((keepsPower_rule arrival).handle power state)
        simp [Moment.isPowerPress, power]

/-! ## The ledger -/

/-- The watcher's state and log with the power presses numbered from zero. -/
structure PowerLedger where
  state : State := {}
  log : List Effect := []
  presses : Nat := 0
  /-- The press `power_pending` stands for. -/
  pending : Option Nat := none
  /-- Presses that were made into clicks. -/
  clicked : List Nat := []
  /-- Presses that were made into toggles, two for each. -/
  toggled : List Nat := []

namespace PowerLedger

/-- The number of the press, when the moment is one. -/
def press (ledger : PowerLedger) (moment : Moment) : Option Nat :=
  if moment.isPowerPress then some ledger.presses else none

/-- A click is made of the press that was waiting, a toggle of that one and the press that
has just come. -/
def record (ledger : PowerLedger) (moment : Moment) : PowerLedger :=
  let outcome := moment.act ledger.state
  let press := ledger.press moment
  { state := outcome.1
    log := ledger.log ++ outcome.2
    presses := ledger.presses + press.toList.length
    pending := if outcome.1.powerPending then press.or ledger.pending else none
    clicked := ledger.clicked ++ if clicks outcome.2 = 0 then [] else ledger.pending.toList
    toggled := ledger.toggled ++
      if toggles outcome.2 = 0 then [] else ledger.pending.toList ++ press.toList }

/-- Every press is in a click, in a toggle or still waiting: the numbers add up, each click is
made of one press and each toggle of two, and no press is part of both. -/
def Accounted (ledger : PowerLedger) : Prop :=
  ledger.presses =
      clicks ledger.log + 2 * toggles ledger.log + ledger.state.powerPending.toNat ∧
    ledger.clicked.length = clicks ledger.log ∧
    ledger.toggled.length = 2 * toggles ledger.log ∧
    ∀ press ∈ ledger.clicked, press ∉ ledger.toggled

instance (ledger : PowerLedger) : Decidable ledger.Accounted :=
  inferInstanceAs (Decidable (_ ∧ _))

/-- A press that finds another one waiting comes within its 400 ms. -/
def InTime (ledger : PowerLedger) (moment : Moment) : Prop :=
  moment.isPowerPress = true → ledger.state.powerPending = true →
    moment.Completes ledger.state

end PowerLedger

/-- The button watcher, one clock reading at a time. -/
def powerMachine : Machine PowerLedger Moment where
  initial := {}
  step := PowerLedger.record

/-- The ledger watches the same program as a session does. -/
theorem powerMachine_follows (inputs : List Pass) :
    (powerMachine.run powerMachine.initial (moments inputs)).state =
        (machine.run machine.initial inputs).state ∧
      (powerMachine.run powerMachine.initial (moments inputs)).log =
        (machine.run machine.initial inputs).log := by
  have follows : ∀ (inputs : List Pass) (ledger : PowerLedger) (session : Session),
      ledger.state = session.state → ledger.log = session.log →
      (powerMachine.run ledger (moments inputs)).state = (machine.run session inputs).state ∧
        (powerMachine.run ledger (moments inputs)).log = (machine.run session inputs).log := by
    intro inputs
    induction inputs with
    | nil => exact fun ledger session state log => ⟨state, log⟩
    | cons input rest ih =>
        obtain ⟨top, arrival⟩ := input
        intro ledger session state log
        have split : moments (⟨top, arrival⟩ :: rest) =
            (.loopTop top :: (arrival.map Moment.event).toList) ++ moments rest := rfl
        rw [split, Machine.run_append, Machine.run_cons]
        cases arrival with
        | none =>
            refine ih _ _ ?_ ?_
            · exact congrArg (fun state => (sweep top state).state) state
            · simp only [powerMachine, PowerLedger.record, Moment.act, state, log]
              rfl
        | some arrival =>
            refine ih _ _ ?_ ?_
            · exact congrArg (fun state => (handle arrival (sweep top state).state).1) state
            · simp only [powerMachine, PowerLedger.record, Moment.act, state, log]
              rfl
  exact follows inputs _ _ rfl rfl

namespace PowerLedger

/-- What holds of the numbering whatever the clock does. -/
structure Numbered (ledger : PowerLedger) : Prop where
  pending : ledger.pending.isSome = ledger.state.powerPending
  clicked : ledger.clicked.length = clicks ledger.log
  toggled : ledger.toggled.length = 2 * toggles ledger.log
  apart : ∀ press ∈ ledger.clicked, press ∉ ledger.toggled
  waiting : ∀ press ∈ ledger.pending, press ∉ ledger.clicked ∧ press ∉ ledger.toggled
  clicked_lt : ∀ press ∈ ledger.clicked, press < ledger.presses
  toggled_lt : ∀ press ∈ ledger.toggled, press < ledger.presses
  pending_lt : ∀ press ∈ ledger.pending, press < ledger.presses

/-- A moment adds its clicks to the ledger. -/
theorem record_clicks (ledger : PowerLedger) (moment : Moment) :
    clicks (ledger.record moment).log =
      clicks ledger.log + clicks (moment.act ledger.state).2 :=
  clicks_append _ _

/-- A moment adds its toggles to the ledger. -/
theorem record_toggles (ledger : PowerLedger) (moment : Moment) :
    toggles (ledger.record moment).log =
      toggles ledger.log + toggles (moment.act ledger.state).2 :=
  toggles_append _ _

namespace Numbered

variable {ledger : PowerLedger} {moment : Moment}

/-- A press that waits has its place in the ledger. -/
theorem exists_waiting (numbered : ledger.Numbered) (waiting : ledger.state.powerPending = true) :
    ∃ press, ledger.pending = some press := by
  rw [← numbered.pending] at waiting
  exact Option.isSome_iff_exists.mp waiting

/-- The next press is in no effect yet. -/
theorem fresh_next (numbered : ledger.Numbered) :
    ledger.presses ∉ ledger.clicked ∧ ledger.presses ∉ ledger.toggled :=
  ⟨fun member => absurd (numbered.clicked_lt _ member) (Nat.lt_irrefl _),
    fun member => absurd (numbered.toggled_lt _ member) (Nat.lt_irrefl _)⟩

/-- A moment that clicks some presses, toggles with others and leaves one waiting, all of them
different and in no effect before. -/
theorem extend (numbered : ledger.Numbered) (clicked toggled : List Nat)
    (clicks_eq : (ledger.record moment).clicked = ledger.clicked ++ clicked)
    (clicks_act : clicks (moment.act ledger.state).2 = clicked.length)
    (toggles_eq : (ledger.record moment).toggled = ledger.toggled ++ toggled)
    (toggles_act : 2 * toggles (moment.act ledger.state).2 = toggled.length)
    (waits : (ledger.record moment).pending.isSome = (moment.act ledger.state).1.powerPending)
    (grows : ledger.presses ≤ (ledger.record moment).presses)
    (different : (clicked ++ toggled ++ (ledger.record moment).pending.toList).Nodup)
    (fresh : ∀ press ∈ clicked ++ toggled ++ (ledger.record moment).pending.toList,
      (press ∉ ledger.clicked ∧ press ∉ ledger.toggled) ∧
        press < (ledger.record moment).presses) : (ledger.record moment).Numbered := by
  obtain ⟨effects, _, waitingApart⟩ := List.nodup_append.mp different
  obtain ⟨_, _, effectsApart⟩ := List.nodup_append.mp effects
  constructor
  · exact waits
  · rw [clicks_eq, List.length_append, numbered.clicked, record_clicks, clicks_act]
  · rw [toggles_eq, List.length_append, numbered.toggled, record_toggles, Nat.mul_add, toggles_act]
  · rw [clicks_eq, toggles_eq]
    intro press inClicks inToggles
    rcases List.mem_append.mp inClicks with old | new
    · rcases List.mem_append.mp inToggles with before | now
      · exact numbered.apart press old before
      · exact (fresh press (by simp [now])).1.1 old
    · rcases List.mem_append.mp inToggles with before | now
      · exact (fresh press (by simp [new])).1.2 before
      · exact effectsApart press new press now rfl
  · rw [clicks_eq, toggles_eq]
    intro press isWaiting
    have listed : press ∈ (ledger.record moment).pending.toList := Option.mem_toList.mpr isWaiting
    obtain ⟨⟨notClicked, notToggled⟩, _⟩ := fresh press (List.mem_append_right _ listed)
    constructor
    · intro member
      rcases List.mem_append.mp member with old | new
      · exact notClicked old
      · exact waitingApart press (List.mem_append_left _ new) press listed rfl
    · intro member
      rcases List.mem_append.mp member with old | new
      · exact notToggled old
      · exact waitingApart press (List.mem_append_right _ new) press listed rfl
  · rw [clicks_eq]
    intro press member
    rcases List.mem_append.mp member with old | new
    · exact Nat.lt_of_lt_of_le (numbered.clicked_lt press old) grows
    · exact (fresh press (by simp [new])).2
  · rw [toggles_eq]
    intro press member
    rcases List.mem_append.mp member with old | new
    · exact Nat.lt_of_lt_of_le (numbered.toggled_lt press old) grows
    · exact (fresh press (by simp [new])).2
  · exact fun press isWaiting =>
      (fresh press (List.mem_append_right _ (Option.mem_toList.mpr isWaiting))).2

/-- A moment that leaves the power key alone only lengthens the log. -/
theorem keeps (numbered : ledger.Numbered) (other : moment.isPowerPress = false)
    (kept : ledger.state.KeepsPower (moment.act ledger.state)) :
    (ledger.record moment).Numbered ∧ (ledger.record moment).presses = ledger.presses := by
  obtain ⟨view, noClick, noToggle⟩ := kept
  have flag := congrArg PowerView.pending view
  simp only [State.powerView_pending] at flag
  have none : ledger.press moment = none := by simp [press, other]
  have pending : (ledger.record moment).pending = ledger.pending := by
    simp only [record, none, Option.none_or, flag, ← numbered.pending]
    cases ledger.pending <;> rfl
  have presses : (ledger.record moment).presses = ledger.presses := by
    simp [record, none]
  refine ⟨numbered.extend [] [] ?_ noClick ?_ ?_ ?_ ?_ ?_ ?_, presses⟩
  · simp [record, noClick]
  · simp [record, noToggle]
  · simp [noToggle]
  · rw [pending, numbered.pending, flag]
  · exact Nat.le_of_eq presses.symm
  · rw [pending]
    cases ledger.pending <;> simp
  · rw [pending, presses]
    intro press member
    have waits : press ∈ ledger.pending := Option.mem_toList.mp member
    exact ⟨numbered.waiting press waits, numbered.pending_lt press waits⟩

/-- A click takes the press that was waiting. -/
theorem click (numbered : ledger.Numbered) (other : moment.isPowerPress = false)
    (waiting : ledger.state.powerPending = true)
    (done : (moment.act ledger.state).1.powerPending = false)
    (one : clicks (moment.act ledger.state).2 = 1)
    (noToggle : toggles (moment.act ledger.state).2 = 0) :
    (ledger.record moment).Numbered ∧ (ledger.record moment).presses = ledger.presses := by
  obtain ⟨first, armed⟩ := numbered.exists_waiting waiting
  have none : ledger.press moment = none := by simp [press, other]
  have pending : (ledger.record moment).pending = Option.none := by simp [record, done]
  have presses : (ledger.record moment).presses = ledger.presses := by
    simp [record, none]
  refine ⟨numbered.extend [first] [] ?_ one ?_ ?_ ?_ ?_ ?_ ?_, presses⟩
  · simp [record, one, armed]
  · simp [record, noToggle]
  · simp [noToggle]
  · rw [pending, done]
    rfl
  · exact Nat.le_of_eq presses.symm
  · simp [pending]
  · rw [pending, presses]
    intro press member
    rw [List.mem_singleton.mp member]
    exact ⟨numbered.waiting first armed, numbered.pending_lt first armed⟩

/-- A toggle takes the press that was waiting and the one that has come. -/
theorem toggle (numbered : ledger.Numbered) (isPress : moment.isPowerPress = true)
    (waiting : ledger.state.powerPending = true)
    (done : (moment.act ledger.state).1.powerPending = false)
    (noClick : clicks (moment.act ledger.state).2 = 0)
    (one : toggles (moment.act ledger.state).2 = 1) :
    (ledger.record moment).Numbered ∧ (ledger.record moment).presses = ledger.presses + 1 := by
  obtain ⟨first, armed⟩ := numbered.exists_waiting waiting
  have firstLt := numbered.pending_lt first armed
  have number : ledger.press moment = some ledger.presses := by simp [press, isPress]
  have pending : (ledger.record moment).pending = none := by simp [record, done]
  have presses : (ledger.record moment).presses = ledger.presses + 1 := by
    simp [record, number]
  refine ⟨numbered.extend [] [first, ledger.presses] ?_ noClick ?_ ?_ ?_
    ?_ ?_ ?_, presses⟩
  · simp [record, noClick]
  · simp [record, one, armed, number]
  · rw [one]
    rfl
  · rw [pending, done]
    rfl
  · rw [presses]
    exact Nat.le_succ _
  · simp [pending, Nat.ne_of_lt firstLt]
  · rw [pending, presses]
    intro press member
    simp only [List.nil_append, Option.toList_none, List.append_nil, List.mem_cons,
      List.not_mem_nil, or_false] at member
    rcases member with rfl | rfl
    · exact ⟨numbered.waiting _ armed, Nat.lt_succ_of_lt firstLt⟩
    · exact ⟨numbered.fresh_next, Nat.lt_succ_self _⟩

/-- A press that waits takes the place of any that was waiting. -/
theorem arm (numbered : ledger.Numbered) (isPress : moment.isPowerPress = true)
    (waits : (moment.act ledger.state).1.powerPending = true)
    (noClick : clicks (moment.act ledger.state).2 = 0)
    (noToggle : toggles (moment.act ledger.state).2 = 0) :
    (ledger.record moment).Numbered ∧ (ledger.record moment).presses = ledger.presses + 1 := by
  have number : ledger.press moment = some ledger.presses := by simp [press, isPress]
  have pending : (ledger.record moment).pending = some ledger.presses := by
    simp [record, waits, number]
  have presses : (ledger.record moment).presses = ledger.presses + 1 := by
    simp [record, number]
  refine ⟨numbered.extend [] [] ?_ noClick ?_ ?_ ?_ ?_ ?_ ?_, presses⟩
  · simp [record, noClick]
  · simp [record, noToggle]
  · simp [noToggle]
  · rw [pending, waits]
    rfl
  · rw [presses]
    exact Nat.le_succ _
  · simp [pending]
  · rw [pending, presses]
    intro press member
    rw [List.mem_singleton.mp member]
    exact ⟨numbered.fresh_next, Nat.lt_succ_self _⟩

end Numbered

/-- The numbers add up. -/
def Conserved (ledger : PowerLedger) : Prop :=
  ledger.presses =
    clicks ledger.log + 2 * toggles ledger.log + ledger.state.powerPending.toNat

/-- A moment keeps the numbering, and the sum exactly when a press that finds another one
waiting is in time. -/
theorem Numbered.record {ledger : PowerLedger} (numbered : ledger.Numbered) (moment : Moment)
    (conserved : ledger.Conserved) :
    (ledger.record moment).Numbered ∧
      ((ledger.record moment).Conserved ↔ ledger.InTime moment) := by
  unfold Conserved at conserved
  have flag : (ledger.record moment).state.powerPending =
      (moment.act ledger.state).1.powerPending := rfl
  unfold Conserved InTime
  rw [record_clicks, record_toggles, flag]
  rcases act_powerMove ledger.state moment with
    ⟨other, kept⟩ | ⟨other, waiting, done, one, noToggle⟩ |
    ⟨isPress, completes, waiting, done, noClick, one⟩ |
    ⟨isPress, alone, waits, noClick, noToggle⟩
  · obtain ⟨next, presses⟩ := numbered.keeps other kept
    have same := congrArg PowerView.pending kept.1
    simp only [State.powerView_pending] at same
    refine ⟨next, ?_⟩
    rw [presses, kept.2.1, kept.2.2, same]
    simp [other, conserved]
  · obtain ⟨next, presses⟩ := numbered.click other waiting done one noToggle
    refine ⟨next, fun _ isPress => absurd isPress (by simp [other]), fun _ => ?_⟩
    rw [presses, one, noToggle, done, conserved, waiting, Bool.toNat_true, Bool.toNat_false]
    omega
  · obtain ⟨next, presses⟩ := numbered.toggle isPress waiting done noClick one
    refine ⟨next, fun _ _ _ => completes, fun _ => ?_⟩
    rw [presses, noClick, one, done, conserved, waiting, Bool.toNat_true, Bool.toNat_false]
    omega
  · obtain ⟨next, presses⟩ := numbered.arm isPress waits noClick noToggle
    refine ⟨next, ?_⟩
    rw [presses, noClick, noToggle, waits, conserved]
    cases waiting : ledger.state.powerPending with
    | false => simp
    | true => simp [isPress, alone]

end PowerLedger

/-- Every power press is accounted for exactly once, after every step, along exactly those
schedules on which each press that finds another one waiting comes within its 400 ms. -/
theorem power_presses_accounted (inputs : List Pass) :
    powerMachine.Always PowerLedger.Accounted powerMachine.initial (moments inputs) ↔
      powerMachine.StepsMeet PowerLedger.InTime powerMachine.initial (moments inputs) := by
  refine Machine.always_iff_stepsMeet_of_all
    (fun ledger => ledger.Numbered ∧ ledger.Conserved) ?_ ?_ ?_ ?_ (moments inputs)
  · rintro ledger ⟨numbered, conserved⟩
    exact ⟨conserved, numbered.clicked, numbered.toggled, numbered.apart⟩
  · rintro ledger moment ⟨numbered, conserved⟩ inTime
    obtain ⟨next, sum⟩ := numbered.record moment conserved
    exact ⟨next, sum.mpr inTime⟩
  · rintro ledger moment ⟨numbered, conserved⟩ late accounted
    obtain ⟨_, sum⟩ := numbered.record moment conserved
    exact late (sum.mp accounted.1)
  · refine ⟨⟨rfl, rfl, rfl, ?_, ?_, ?_, ?_, ?_⟩, rfl⟩
    · exact fun press member => absurd member List.not_mem_nil
    · exact fun press member => absurd member (by simp [powerMachine])
    · exact fun press member => absurd member List.not_mem_nil
    · exact fun press member => absurd member List.not_mem_nil
    · exact fun press member => absurd member (by simp [powerMachine])

/-- The second press is read 401 ms after the first, in a pass whose loop top still saw 1 ms
to go: two presses, no click, no toggle, one press waiting. -/
theorem power_press_lost :
    (readings [.key 1000 keyPower 1 .koreader, .key 1100 keyPower 0 .koreader,
        ⟨1399, some ⟨⟨evKey, keyPower, 1⟩, 1401, AppFiles.setActiveApp .koreader,
          ⟨true, true, true⟩⟩⟩]).Pairwise (· ≤ ·) ∧
      ¬ powerMachine.Always PowerLedger.Accounted powerMachine.initial
        (moments [.key 1000 keyPower 1 .koreader, .key 1100 keyPower 0 .koreader,
          ⟨1399, some ⟨⟨evKey, keyPower, 1⟩, 1401, AppFiles.setActiveApp .koreader,
            ⟨true, true, true⟩⟩⟩]) := by
  decide

end Nookobo.Watcher
