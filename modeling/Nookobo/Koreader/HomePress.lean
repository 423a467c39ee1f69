import Nookobo.Koreader.Model

/-!
# Home gestures through both hold detectors

The watcher forwards a held Home only after 500 ms, and KOReader starts its own 500 ms there.
So a hold is a dialog only from 1000 ms on, a hold of 500 to 1000 ms arrives as a tap, and a
tap is lost when the double-tap flag of an earlier press is still set.

A desk passes through few situations on the way: `Armed` (Home down, not yet forwarded),
`Forwarded` (KOReader has the press), `Tapped` (the release waits for the double-tap window)
and `Done`. Each quiet pass keeps the situation or moves to the next one, because `select`
returns no later than the deadline ahead.
-/

namespace Nookobo.Koreader

open Nookobo.Semantics Nookobo.Watcher

/-! ## Effects that KOReader or the clock notices -/

/-- The sleeps and the Home events. -/
def isTimed : Effect → Bool
  | .usleep _ => true
  | .emit event => event.type = evKey ∧ event.code = keyHome
  | _ => false

/-- The sleeps and Home events of a list of effects. -/
def timed (effects : List Effect) : List Effect := effects.filter isTimed

/-- No effects hold none that is noticed. -/
@[simp] theorem timed_nil : timed [] = [] := rfl

/-- The noticed effects of two lists are those of the one and then those of the other. -/
@[simp] theorem timed_append (first second : List Effect) :
    timed (first ++ second) = timed first ++ timed second :=
  List.filter_append ..

/-- The first effect counts if it is noticed. -/
@[simp] theorem timed_cons (effect : Effect) (rest : List Effect) :
    timed (effect :: rest) = if isTimed effect then effect :: timed rest else timed rest :=
  List.filter_cons

/-- The other effects change nothing on the scene. -/
theorem foldl_follow_timed (tasksFirst : Bool) (effects : List Effect) (scene : Scene) :
    effects.foldl (Scene.follow tasksFirst) scene =
      (timed effects).foldl (Scene.follow tasksFirst) scene := by
  induction effects generalizing scene with
  | nil => rfl
  | cons effect rest ih =>
      rw [List.foldl_cons, ih, timed_cons]
      cases noticed : isTimed effect with
      | true => rfl
      | false =>
          have still : scene.follow tasksFirst effect = scene := by
            cases effect with
            | emit event =>
                simp only [isTimed, decide_eq_false_iff_not] at noticed
                simp [Scene.follow, noticed]
            | usleep microseconds => cases noticed
            | _ => rfl
          simp [still]

/-! ## The loop top -/

section LoopTop

variable (now : UInt64) (sweep : Sweep)

/-- A tightened timeout is at most the new bound and at most the old one. -/
theorem tighten_timeoutMs (rem : Int) :
    (sweep.tighten rem).timeoutMs ≤ rem ∧ (sweep.tighten rem).timeoutMs ≤ sweep.timeoutMs := by
  unfold Sweep.tighten
  split
  · next shorter => exact ⟨Int.le_refl _, Int.le_of_lt shorter⟩
  · next longer => exact ⟨Int.not_lt.mp longer, Int.le_refl _⟩

/-- The toast's stage is not noticed. -/
theorem toast_quiet :
    timed (sweep.toast now).effects = timed sweep.effects ∧
      (sweep.toast now).state.powerPending = sweep.state.powerPending := by
  have hidden : timed (hideToast sweep.state).2 = [] ∧
      (hideToast sweep.state).1.powerPending = sweep.state.powerPending := by
    unfold hideToast
    split <;> exact ⟨rfl, rfl⟩
  have stage := sweep.toast_stage now
  generalize sweep.toast now = after at stage ⊢
  cases stage with
  | fires => exact ⟨by simp [hidden.1], hidden.2⟩
  | waits rem =>
      obtain ⟨sameState, sameEffects⟩ := sweep.tighten_state rem
      exact ⟨congrArg timed sameEffects, congrArg State.powerPending sameState⟩
  | idle => exact ⟨rfl, rfl⟩

/-- Without a power press the power key's stage does nothing. -/
theorem power_quiet (noPower : sweep.state.powerPending = false) : sweep.power now = sweep := by
  simp [Sweep.power, noPower]

/-- All that is noticed of the long press's stage is the Home press, when it is due. -/
theorem longPress_timed :
    timed (sweep.longPress now).effects = timed sweep.effects ++
        (if sweep.state.homeView.longDue now then [emitKey keyHome 1] else []) ∧
      (sweep.longPress now).state.powerPending = sweep.state.powerPending := by
  unfold Sweep.longPress HomeView.longDue
  simp only [State.homeView_down, State.homeView_combo, State.homeView_long,
    State.homeView_downTime]
  cases (sweep.state.homeDown && !sweep.state.homeComboConsumed &&
      !sweep.state.homeLongSent) with
  | false => simp
  | true =>
      by_cases due : remaining (sweep.state.homeDownTime + homeLongPressMs) now ≤ 0
      · simp [due, isTimed, emitKey, emitSyn, evKey, evSyn]
      · obtain ⟨sameState, sameEffects⟩ := sweep.tighten_state
          (remaining (sweep.state.homeDownTime + homeLongPressMs) now)
        simp [due, sameState, sameEffects]

/-- All that is noticed of the single tap's stage is the click, when it is due. -/
theorem singleTap_timed :
    timed (sweep.singleTap now).effects = timed sweep.effects ++
        (if sweep.state.homeView.singleDue now then
          [emitKey keyHome 1, .usleep 20000, emitKey keyHome 0] else []) ∧
      (sweep.singleTap now).state.powerPending = sweep.state.powerPending := by
  unfold Sweep.singleTap HomeView.singleDue
  simp only [State.homeView_pending, State.homeView_singleTime]
  cases sweep.state.homePendingSingle with
  | false => simp
  | true =>
      by_cases due : remaining (sweep.state.homeSingleTime + powerDoubleClickMs) now ≤ 0
      · simp [due, isTimed, emitKeyClick, emitKey, emitSyn, evKey, evSyn]
      · obtain ⟨sameState, sameEffects⟩ := sweep.tighten_state
          (remaining (sweep.state.homeSingleTime + powerDoubleClickMs) now)
        simp [due, sameState, sameEffects]

/-- The single tap's stage only shortens the timeout. -/
theorem singleTap_timeoutMs_le : (sweep.singleTap now).timeoutMs ≤ sweep.timeoutMs := by
  have stage := sweep.singleTap_stage now
  generalize sweep.singleTap now = after at stage ⊢
  cases stage with
  | fires => exact Int.le_refl _
  | waits rem => exact (tighten_timeoutMs sweep rem).2
  | idle => exact Int.le_refl _

/-- A hold that is not due yet bounds the timeout. -/
theorem longPress_timeoutMs_le (down : sweep.state.homeView.down = true)
    (combo : sweep.state.homeView.combo = false) (long : sweep.state.homeView.long = false)
    (notDue : sweep.state.homeView.longDue now = false) :
    (sweep.longPress now).timeoutMs ≤
      remaining (sweep.state.homeView.downTime + homeLongPressMs) now := by
  simp only [HomeView.longDue, down, combo, long, Bool.not_false, Bool.and_self, Bool.true_and,
    decide_eq_false_iff_not] at notDue
  simp only [State.homeView_down, State.homeView_combo, State.homeView_long,
    State.homeView_downTime] at down combo long notDue ⊢
  simp [Sweep.longPress, down, combo, long, notDue, (tighten_timeoutMs sweep _).1]

/-- A tap whose window is open bounds the timeout. -/
theorem singleTap_timeoutMs_le_window (pending : sweep.state.homeView.pending = true)
    (notDue : sweep.state.homeView.singleDue now = false) :
    (sweep.singleTap now).timeoutMs ≤
      remaining (sweep.state.homeView.singleTime + powerDoubleClickMs) now := by
  simp only [HomeView.singleDue, pending, Bool.true_and, decide_eq_false_iff_not] at notDue
  simp only [State.homeView_pending, State.homeView_singleTime] at pending notDue ⊢
  simp [Sweep.singleTap, pending, notDue, (tighten_timeoutMs sweep _).1]

end LoopTop

/-- The loop top of a watcher without a pending power tap, as the scene sees it. -/
structure SweepFacts (now : UInt64) (state : State) : Prop where
  view : (sweep now state).state.homeView = (state.homeView.sweep now).1
  noPower : (sweep now state).state.powerPending = false
  timed_eq : timed (sweep now state).effects =
    (if state.homeView.longDue now then [emitKey keyHome 1] else []) ++
      if ((state.homeView.sweepLong now).1).singleDue now then
        [emitKey keyHome 1, .usleep 20000, emitKey keyHome 0]
      else []
  longDeadline : state.homeView.down = true → state.homeView.combo = false →
    state.homeView.long = false → state.homeView.longDue now = false →
    (sweep now state).timeoutMs ≤ remaining (state.homeView.downTime + homeLongPressMs) now
  singleDeadline : state.homeView.longDue now = false → state.homeView.pending = true →
    state.homeView.singleDue now = false →
    (sweep now state).timeoutMs ≤ remaining (state.homeView.singleTime + powerDoubleClickMs) now

/-- The loop top in reading of the Home key alone. -/
theorem sweepFacts (now : UInt64) {state : State} (noPower : state.powerPending = false) :
    SweepFacts now state := by
  have toastView : ({ state := state : Sweep }.toast now).state.homeView = state.homeView :=
    (Sweep.toast_follows now { state := state : Sweep }).1
  obtain ⟨toastTimed, toastPower⟩ := toast_quiet now { state := state : Sweep }
  have unpowered := power_quiet now ({ state := state : Sweep }.toast now)
    (toastPower.trans noPower)
  have stages : sweep now state =
      ((({ state := state : Sweep }.toast now).longPress now).singleTap now) := by
    rw [sweep, unpowered]
  generalize ({ state := state : Sweep }.toast now) = toasted at *
  obtain ⟨longView, -⟩ := Sweep.longPress_follows now toasted
  obtain ⟨longTimed, longPower⟩ := longPress_timed now toasted
  obtain ⟨singleTimed, singlePower⟩ := singleTap_timed now (toasted.longPress now)
  constructor
  · exact (sweep_homeView now state).1
  · rw [stages]
    exact singlePower.trans (longPower.trans (toastPower.trans noPower))
  · rw [stages, singleTimed, longTimed, toastTimed, longView, toastView]
    rfl
  · intro down combo long notDue
    rw [stages]
    rw [← toastView] at down combo long notDue ⊢
    exact Int.le_trans (singleTap_timeoutMs_le now _)
      (longPress_timeoutMs_le now toasted down combo long notDue)
  · intro notDue pending open_
    have same : (toasted.longPress now).state.homeView = state.homeView := by
      rw [longView, toastView]
      simp [HomeView.sweepLong, notDue]
    rw [stages]
    rw [← same] at pending open_ ⊢
    exact singleTap_timeoutMs_le_window now _ pending open_

/-- Inside a window the time left is the plain difference. -/
theorem remaining_window {start window now : Nat} (since : start ≤ now)
    (inTime : now ≤ start + window) (short : window ≤ 1000) :
    remaining (.ofNat start + .ofNat window) (.ofNat now) = (start + window - now : Nat) := by
  have small : start + window - now < UInt64.size := by
    simp only [UInt64.size]
    omega
  have difference :
      (UInt64.ofNat start + UInt64.ofNat window - UInt64.ofNat now).toNat =
        start + window - now := by
    rw [← UInt64.ofNat_add, ← UInt64.ofNat_sub inTime]
    exact UInt64.toNat_ofNat_of_lt' small
  have bound : start + window - now ≤ 1000 := by omega
  unfold remaining
  rw [difference]
  generalize start + window - now = gap at bound
  exact Int.bmod_eq_of_le_mul_two (by omega) (by omega)

/-! ## Passes without a key -/

/-- Events that are not keys leave the watcher's variables and the scene alone. -/
theorem handle_of_not_key {arrival : Arrival} (notKey : arrival.event.type ≠ evKey)
    (state : State) : (handle arrival state).1 = state ∧ timed (handle arrival state).2 = [] := by
  have unnoticed : isTimed (.emit arrival.event) = false := by simp [isTimed, notKey]
  unfold handle
  simp only [notKey, false_and, if_false]
  split
  · refine ⟨rfl, ?_⟩
    unfold handleLid
    dsimp only
    rw [timed_append, timed_cons, unnoticed]
    split <;> rfl
  · split
    · simp [unnoticed]
    · exact ⟨rfl, rfl⟩

namespace Desk

variable {tasksFirst : Bool} {desk : Desk} {wake : Wake}

/-- The desk as `select` is called. -/
def swept (tasksFirst : Bool) (desk : Desk) : Desk :=
  ⟨desk.top.state, desk.top.effects.foldl (Scene.follow tasksFirst) desk.scene⟩

/-- The desk after `select` has slept. -/
def wait (duration : Nat) (desk : Desk) : Desk :=
  { desk with scene := desk.scene.wait duration }

/-- The handling of an event at the present time. -/
def deliver (tasksFirst : Bool) (stimulus : Stimulus) (desk : Desk) : Desk :=
  let outcome := handle ⟨stimulus.event, .ofNat desk.scene.clock, stimulus.files, stimulus.fb⟩
    desk.watcher
  ⟨outcome.1, outcome.2.foldl (Scene.follow tasksFirst) desk.scene⟩

/-- A wake with an event is the loop top, the sleep and the handling. -/
theorem advance_some {stimulus : Stimulus} (read : wake.stimulus = some stimulus) :
    desk.advance tasksFirst wake =
      ((desk.swept tasksFirst).wait wake.delay).deliver tasksFirst stimulus := by
  unfold advance
  rw [read]
  rfl

/-- An event that is no key leaves the desk alone. -/
theorem deliver_of_not_key {stimulus : Stimulus} (notKey : stimulus.event.type ≠ evKey)
    (desk : Desk) : desk.deliver tasksFirst stimulus = desk := by
  obtain ⟨same, silent⟩ := @handle_of_not_key
    ⟨stimulus.event, .ofNat desk.scene.clock, stimulus.files, stimulus.fb⟩ notKey desk.watcher
  unfold deliver
  dsimp only
  rw [same, foldl_follow_timed, silent]
  rfl

/-- A quiet wake is the loop top and the sleep. -/
theorem advance_quiet (quiet : wake.Quiet) :
    desk.advance tasksFirst wake = (desk.swept tasksFirst).wait wake.delay := by
  cases read : wake.stimulus with
  | none =>
      unfold advance
      rw [read]
      rfl
  | some stimulus => rw [advance_some read, deliver_of_not_key (quiet stimulus read)]

/-- A Home event is handled after the loop top and the sleep. -/
theorem advance_home (tasksFirst : Bool) (desk : Desk) {value : Int} (home : wake.IsHome value) :
    ∃ stimulus, stimulus.event = ⟨evKey, keyHome, value⟩ ∧
      desk.advance tasksFirst wake =
        ((desk.swept tasksFirst).wait wake.delay).deliver tasksFirst stimulus := by
  obtain ⟨stimulus, read, event⟩ := Option.map_eq_some_iff.mp home
  exact ⟨stimulus, event, advance_some read⟩

/-- What quiet passes in time preserve holds at the end of them. -/
theorem quiet_run {situation : Desk → Prop}
    (keeps : ∀ desk wake, situation desk → desk.Timely wake → wake.Quiet →
      situation (desk.advance tasksFirst wake))
    {wakes : List Wake} (quiet : ∀ wake ∈ wakes, wake.Quiet)
    (timely : (machine tasksFirst).StepsMeet Timely desk wakes) (start : situation desk) :
    situation ((machine tasksFirst).run desk wakes) := by
  induction wakes generalizing desk with
  | nil => exact start
  | cons wake rest ih =>
      refine ih (fun later member => quiet later (List.mem_cons_of_mem _ member)) timely.2 ?_
      exact keeps desk wake start timely.1 (quiet wake List.mem_cons_self)

end Desk

/-! ## Before the press -/

namespace Desk

variable {tasksFirst : Bool} {desk : Desk}

/-- The scene after the loop top follows from the few effects it notices. -/
theorem swept_scene (desk : Desk) :
    (desk.swept tasksFirst).scene =
      (timed desk.top.effects).foldl (Scene.follow tasksFirst) desk.scene :=
  foldl_follow_timed tasksFirst _ _

/-- A loop top at which nothing falls due leaves keys and scene alone. -/
theorem swept_still (tasksFirst : Bool) (noPower : desk.watcher.powerPending = false)
    (notLong : desk.watcher.homeView.longDue (.ofNat desk.scene.clock) = false)
    (notSingle : desk.watcher.homeView.singleDue (.ofNat desk.scene.clock) = false) :
    (desk.swept tasksFirst).watcher.homeView = desk.watcher.homeView ∧
      (desk.swept tasksFirst).watcher.powerPending = false ∧
      (desk.swept tasksFirst).scene = desk.scene := by
  have facts := sweepFacts (.ofNat desk.scene.clock) noPower
  have sameLong : desk.watcher.homeView.sweepLong (.ofNat desk.scene.clock) =
      (desk.watcher.homeView, []) := by
    simp [HomeView.sweepLong, notLong]
  refine ⟨?_, facts.noPower, ?_⟩
  · refine facts.view.trans ?_
    simp [HomeView.sweep, sameLong, HomeView.sweepSingle, notSingle]
  · rw [swept_scene]
    unfold top
    rw [facts.timed_eq, sameLong, notLong, notSingle]
    rfl

/-- With Home up and no tap waiting nothing falls due. -/
theorem swept_of_idle (tasksFirst : Bool) (up : desk.watcher.homeView.down = false)
    (noTap : desk.watcher.homeView.pending = false)
    (noPower : desk.watcher.powerPending = false) :
    (desk.swept tasksFirst).watcher.homeView = desk.watcher.homeView ∧
      (desk.swept tasksFirst).watcher.powerPending = false ∧
      (desk.swept tasksFirst).scene = desk.scene := by
  refine swept_still tasksFirst noPower ?_ ?_
  · rw [HomeView.longDue, up]
    rfl
  · rw [HomeView.singleDue, noTap]
    rfl

end Desk

/-! ## While Home is held -/

/-- Home is down and not forwarded yet. -/
structure Armed (pressTime : Nat) (double : Bool) (desk : Desk) : Prop where
  view : ∃ singleTime, desk.watcher.homeView =
    ⟨true, false, false, false, double, false, .ofNat pressTime, singleTime⟩
  noPower : desk.watcher.powerPending = false
  since : pressTime ≤ desk.scene.clock
  inTime : desk.scene.clock ≤ pressTime + 500
  noTasks : desk.scene.reader.tasks = []
  noOutcomes : desk.scene.reader.outcomes = []

/-- KOReader has the press and its function is scheduled. -/
structure Forwarded (pressTime : Nat) (double : Bool) (desk : Desk) : Prop where
  view : ∃ singleTime, desk.watcher.homeView =
    ⟨true, false, false, true, double, false, .ofNat pressTime, singleTime⟩
  noPower : desk.watcher.powerPending = false
  since : pressTime + 500 ≤ desk.scene.clock
  reader : desk.scene.reader = ⟨some (pressTime + 500), false, [pressTime + 1000], []⟩

section Held

variable (tasksFirst : Bool) {pressTime : Nat} {double : Bool} {desk : Desk}

/-- While a hold is not forwarded its time left is the plain difference. -/
theorem Armed.remaining_eq (armed : Armed pressTime double desk) :
    remaining (.ofNat pressTime + homeLongPressMs) (.ofNat desk.scene.clock) =
      (pressTime + 500 - desk.scene.clock : Nat) :=
  remaining_window armed.since armed.inTime (by decide)

/-- The hold is due exactly when the clock has reached its deadline. -/
theorem Armed.longDue_eq (armed : Armed pressTime double desk) :
    desk.watcher.homeView.longDue (.ofNat desk.scene.clock) =
      decide (pressTime + 500 ≤ desk.scene.clock) := by
  obtain ⟨singleTime, view⟩ := armed.view
  rw [view]
  simp only [HomeView.longDue, armed.remaining_eq, Bool.not_false, Bool.and_self, Bool.true_and]
  exact decide_eq_decide.mpr (by omega)

/-- Before its deadline a hold only bounds the sleep. -/
theorem Armed.swept_early (armed : Armed pressTime double desk)
    (early : desk.scene.clock < pressTime + 500) :
    Armed pressTime double (desk.swept tasksFirst) ∧
      (desk.swept tasksFirst).scene.clock + desk.top.timeoutMs ≤ pressTime + 500 := by
  have notDue : desk.watcher.homeView.longDue (.ofNat desk.scene.clock) = false := by
    simp [armed.longDue_eq, early]
  obtain ⟨singleTime, view⟩ := armed.view
  have noTap : desk.watcher.homeView.singleDue (.ofNat desk.scene.clock) = false := by
    simp [HomeView.singleDue, view]
  obtain ⟨sameView, noPower, sameScene⟩ :=
    Desk.swept_still tasksFirst armed.noPower notDue noTap
  have bound : desk.top.timeoutMs ≤ (pressTime + 500 - desk.scene.clock : Nat) := by
    have deadline := (sweepFacts (.ofNat desk.scene.clock) armed.noPower).longDeadline
      (by rw [view]) (by rw [view]) (by rw [view]) notDue
    rw [view, armed.remaining_eq] at deadline
    exact deadline
  have inTime := armed.inTime
  refine ⟨⟨⟨singleTime, sameView.trans view⟩, noPower, ?_, ?_, ?_, ?_⟩, ?_⟩
  · exact sameScene ▸ armed.since
  · exact sameScene ▸ armed.inTime
  · exact sameScene ▸ armed.noTasks
  · exact sameScene ▸ armed.noOutcomes
  · rw [sameScene]
    omega

/-- At its deadline a hold is forwarded, and KOReader starts to count. -/
theorem Armed.swept_due (armed : Armed pressTime double desk)
    (due : desk.scene.clock = pressTime + 500) :
    Forwarded pressTime double (desk.swept tasksFirst) := by
  have facts := sweepFacts (.ofNat desk.scene.clock) armed.noPower
  have isDue : desk.watcher.homeView.longDue (.ofNat desk.scene.clock) = true := by
    rw [armed.longDue_eq]
    exact decide_eq_true (Nat.le_of_eq due.symm)
  obtain ⟨singleTime, view⟩ := armed.view
  have forwarded : (desk.watcher.homeView.sweepLong (.ofNat desk.scene.clock)).1 =
      ⟨true, false, false, true, double, false, .ofNat pressTime, singleTime⟩ := by
    rw [HomeView.sweepLong, isDue, view]
    rfl
  have scene : (desk.swept tasksFirst).scene =
      desk.scene.follow tasksFirst (emitKey keyHome 1) := by
    rw [Desk.swept_scene]
    unfold Desk.top
    rw [facts.timed_eq, forwarded, isDue]
    rfl
  refine ⟨⟨singleTime, ?_⟩, facts.noPower, ?_, ?_⟩
  · refine facts.view.trans ?_
    simp [HomeView.sweep, forwarded, HomeView.sweepSingle, HomeView.singleDue]
  · rw [scene]
    exact Nat.le_of_eq due.symm
  · rw [scene]
    simp [Scene.follow, emitKey, Reader.receive, Reader.runTasks, Reader.home, armed.noTasks,
      armed.noOutcomes, due]

/-- The loop top forwards the press at its deadline and not before. -/
theorem Armed.swept (armed : Armed pressTime double desk) :
    Armed pressTime double (desk.swept tasksFirst) ∧
        (desk.swept tasksFirst).scene.clock + desk.top.timeoutMs ≤ pressTime + 500 ∨
      Forwarded pressTime double (desk.swept tasksFirst) := by
  rcases Nat.lt_or_eq_of_le armed.inTime with early | due
  · exact .inl (armed.swept_early tasksFirst early)
  · exact .inr (armed.swept_due tasksFirst due)

/-- The loop top does not forward a hold twice. -/
theorem Forwarded.swept (forwarded : Forwarded pressTime double desk) :
    Forwarded pressTime double (desk.swept tasksFirst) := by
  obtain ⟨singleTime, view⟩ := forwarded.view
  have notLong : desk.watcher.homeView.longDue (.ofNat desk.scene.clock) = false := by
    simp [HomeView.longDue, view]
  have noTap : desk.watcher.homeView.singleDue (.ofNat desk.scene.clock) = false := by
    simp [HomeView.singleDue, view]
  obtain ⟨sameView, noPower, sameScene⟩ :=
    Desk.swept_still tasksFirst forwarded.noPower notLong noTap
  refine ⟨⟨singleTime, sameView.trans view⟩, noPower, ?_, ?_⟩
  · exact sameScene ▸ forwarded.since
  · exact sameScene ▸ forwarded.reader

/-- Waiting changes nothing about a forwarded hold. -/
theorem Forwarded.wait (forwarded : Forwarded pressTime double desk) (duration : Nat) :
    Forwarded pressTime double (desk.wait duration) :=
  ⟨forwarded.view, forwarded.noPower, Nat.le_add_right_of_le forwarded.since, forwarded.reader⟩

/-- Home is held, forwarded or not. -/
def Held (pressTime : Nat) (double : Bool) (desk : Desk) : Prop :=
  Armed pressTime double desk ∨ Forwarded pressTime double desk

/-- When `select` returns in time, Home is still armed before its deadline or forwarded. -/
theorem Held.wake {wake : Wake} (held : Held pressTime double desk) (timely : desk.Timely wake) :
    Held pressTime double ((desk.swept tasksFirst).wait wake.delay) := by
  rcases held with armed | forwarded
  · rcases armed.swept tasksFirst with ⟨still, bound⟩ | forwarded
    · refine .inl ⟨still.view, still.noPower, Nat.le_add_right_of_le still.since, ?_,
        still.noTasks, still.noOutcomes⟩
      have inTime : (wake.delay : Int) ≤ desk.top.timeoutMs := timely
      simp only [Desk.wait, Scene.wait]
      omega
    · exact .inr (forwarded.wait _)
  · exact .inr ((forwarded.swept tasksFirst).wait _)

/-- A quiet wake in time leaves Home held. -/
theorem Held.advance_quiet {wake : Wake} (held : Held pressTime double desk)
    (timely : desk.Timely wake) (quiet : wake.Quiet) :
    Held pressTime double (desk.advance tasksFirst wake) := by
  rw [Desk.advance_quiet quiet]
  exact held.wake tasksFirst timely

end Held

/-! ## The press and the release -/

/-- A press without a waiting tap only arms the hold. -/
theorem handle_press {arrival : Arrival} (event : arrival.event = ⟨evKey, keyHome, 1⟩)
    {state : State} (noTap : state.homePendingSingle = false) :
    handle arrival state =
      ({ state with
          homeDown := true
          homeDownTime := arrival.now
          homeComboConsumed := false
          homeLongSent := false
          homePendingSingle := false }, []) := by
  have dispatched : handle arrival state = handleHomeDown arrival state := by
    simp [handle, handleHome, event, keyHome, keyPower]
  rw [dispatched]
  simp [handleHomeDown, isDoubleTap, noTap]

/-- A release is handled as Home up. -/
theorem handle_release {arrival : Arrival} (event : arrival.event = ⟨evKey, keyHome, 0⟩)
    (state : State) : handle arrival state = handleHomeUp arrival state := by
  simp [handle, handleHome, event, keyHome, keyPower]

namespace Desk.Rested

variable {tasksFirst : Bool} {desk : Desk}

/-- A rested desk is still rested when the press is read. -/
theorem wake (rested : desk.Rested) (tasksFirst : Bool) (delay : Nat) :
    ((desk.swept tasksFirst).wait delay).Rested ∧
      ((desk.swept tasksFirst).wait delay).watcher.homeDoubleConsumed =
        desk.watcher.homeDoubleConsumed := by
  obtain ⟨sameView, noPower, sameScene⟩ :=
    swept_of_idle tasksFirst rested.up rested.noTap rested.noPower
  refine ⟨⟨?_, ?_, ?_, noPower, ?_, ?_⟩, congrArg HomeView.double sameView⟩
  · exact (congrArg HomeView.down sameView).trans rested.up
  · exact (congrArg HomeView.media sameView).trans rested.reading
  · exact (congrArg HomeView.pending sameView).trans rested.noTap
  · exact (congrArg (fun scene => scene.reader.tasks) sameScene).trans rested.noTasks
  · exact (congrArg (fun scene => scene.reader.outcomes) sameScene).trans rested.noOutcomes

/-- A press on a rested desk arms the hold at the time of its handling. -/
theorem deliver_press (rested : desk.Rested) {stimulus : Stimulus}
    (event : stimulus.event = ⟨evKey, keyHome, 1⟩) :
    Armed (desk.deliver tasksFirst stimulus).scene.clock desk.watcher.homeDoubleConsumed
      (desk.deliver tasksFirst stimulus) := by
  have pressed := @handle_press
    ⟨stimulus.event, .ofNat desk.scene.clock, stimulus.files, stimulus.fb⟩ event desk.watcher
    rested.noTap
  unfold deliver
  dsimp only
  rw [pressed]
  refine ⟨⟨desk.watcher.homeSingleTime, ?_⟩, rested.noPower, Nat.le_refl _,
    Nat.le_add_right _ _, rested.noTasks, rested.noOutcomes⟩
  ext <;> simp [rested.reading]

/-- The press of a rested desk arms the hold, with the double-tap flag as it was. -/
theorem press {wake : Wake} (rested : desk.Rested) (home : wake.IsHome 1) :
    Armed (desk.advance tasksFirst wake).scene.clock desk.watcher.homeDoubleConsumed
      (desk.advance tasksFirst wake) := by
  obtain ⟨stimulus, event, advanced⟩ := advance_home tasksFirst desk home
  obtain ⟨stillRested, sameDouble⟩ := rested.wake tasksFirst wake.delay
  rw [advanced, ← sameDouble]
  exact stillRested.deliver_press event

end Desk.Rested

/-- A released tap waits for the double-tap window to close. -/
structure Tapped (releaseTime : Nat) (desk : Desk) : Prop where
  view : ∃ downTime, desk.watcher.homeView =
    ⟨false, false, true, false, false, false, downTime, .ofNat releaseTime⟩
  noPower : desk.watcher.powerPending = false
  since : releaseTime ≤ desk.scene.clock
  inTime : desk.scene.clock ≤ releaseTime + 400
  noTasks : desk.scene.reader.tasks = []
  noOutcomes : desk.scene.reader.outcomes = []

/-- Nothing more will come of the press. -/
structure Done (outcomes : List Outcome) (desk : Desk) : Prop where
  up : desk.watcher.homeView.down = false
  noTap : desk.watcher.homeView.pending = false
  noPower : desk.watcher.powerPending = false
  outcomes_eq : desk.scene.reader.outcomes = outcomes
  spent : desk.scene.reader.tasks = [] ∨ desk.scene.reader.homeDownTs = none

section Release

variable (tasksFirst : Bool) {pressTime : Nat} {double : Bool} {desk : Desk} {stimulus : Stimulus}

/-- A hold released before it was forwarded is a tap, unless the double-tap flag eats it. -/
theorem Armed.deliver_release (armed : Armed pressTime double desk)
    (event : stimulus.event = ⟨evKey, keyHome, 0⟩) :
    (desk.deliver tasksFirst stimulus).scene.clock = desk.scene.clock ∧
      (double = false ∧ Tapped desk.scene.clock (desk.deliver tasksFirst stimulus) ∨
        double = true ∧ Done [] (desk.deliver tasksFirst stimulus)) := by
  obtain ⟨singleTime, view⟩ := armed.view
  have combo : desk.watcher.homeComboConsumed = false := congrArg HomeView.combo view
  have noTap : desk.watcher.homePendingSingle = false := congrArg HomeView.pending view
  have notLong : desk.watcher.homeLongSent = false := congrArg HomeView.long view
  have doubled : desk.watcher.homeDoubleConsumed = double := congrArg HomeView.double view
  have reading : desk.watcher.mediaMode = false := congrArg HomeView.media view
  unfold Desk.deliver
  rw [handle_release event]
  dsimp only
  cases double with
  | false =>
      have tapped : handleHomeUp
          ⟨stimulus.event, .ofNat desk.scene.clock, stimulus.files, stimulus.fb⟩ desk.watcher =
          ({ desk.watcher with
              homeDown := false
              homePendingSingle := true
              homeSingleTime := .ofNat desk.scene.clock }, []) := by
        simp [handleHomeUp, combo, notLong, doubled, reading]
      rw [tapped]
      refine ⟨rfl, .inl ⟨rfl, ⟨desk.watcher.homeDownTime, ?_⟩, armed.noPower, Nat.le_refl _,
        Nat.le_add_right _ _, armed.noTasks, armed.noOutcomes⟩⟩
      ext <;> simp [combo, notLong, doubled, reading]
  | true =>
      have eaten : handleHomeUp
          ⟨stimulus.event, .ofNat desk.scene.clock, stimulus.files, stimulus.fb⟩ desk.watcher =
          ({ desk.watcher with homeDown := false, homeDoubleConsumed := false }, []) := by
        simp [handleHomeUp, combo, notLong, doubled]
      rw [eaten]
      exact ⟨rfl, .inr ⟨rfl, rfl, noTap, armed.noPower, armed.noOutcomes, .inl armed.noTasks⟩⟩

/-- KOReader's function runs before a release after `duration`. -/
def Reached (tasksFirst : Bool) (duration : Nat) : Prop :=
  1000 < duration ∨ duration = 1000 ∧ tasksFirst = true

instance (tasksFirst : Bool) (duration : Nat) : Decidable (Reached tasksFirst duration) :=
  inferInstanceAs (Decidable (_ ∨ _))

/-- A release finds the scheduled function run or not. -/
theorem receive_release (tasksFirst : Bool) (pressTime time : Nat) :
    let reader := Reader.receive tasksFirst time 0
      ⟨some (pressTime + 500), false, [pressTime + 1000], []⟩
    reader.homeDownTs = none ∧
      reader.outcomes = if Reached tasksFirst (time - pressTime) then [.dialog]
        else [.navigation] := by
  have ready : (if tasksFirst then decide (pressTime + 1000 ≤ time)
      else decide (pressTime + 1000 < time)) = decide (Reached tasksFirst (time - pressTime)) := by
    cases tasksFirst with
    | false =>
        refine decide_eq_decide.mpr ?_
        simp only [Reached, Bool.false_eq_true, and_false, or_false]
        omega
    | true =>
        refine decide_eq_decide.mpr ?_
        simp only [Reached, and_true]
        omega
  by_cases reached : Reached tasksFirst (time - pressTime)
  · simp [Reader.receive, Reader.runTasks, ready, reached, Reader.longPress, Reader.home]
  · simp [Reader.receive, Reader.runTasks, ready, reached, Reader.home]

/-- The release of a forwarded hold ends in the dialog when KOReader's function came first, and
in a navigation otherwise. -/
theorem Forwarded.deliver_release (forwarded : Forwarded pressTime double desk)
    (event : stimulus.event = ⟨evKey, keyHome, 0⟩) :
    (desk.deliver tasksFirst stimulus).scene.clock = desk.scene.clock ∧
      Done (if Reached tasksFirst (desk.scene.clock - pressTime) then [.dialog]
        else [.navigation]) (desk.deliver tasksFirst stimulus) := by
  obtain ⟨singleTime, view⟩ := forwarded.view
  have combo : desk.watcher.homeComboConsumed = false := congrArg HomeView.combo view
  have noTap : desk.watcher.homePendingSingle = false := congrArg HomeView.pending view
  have long : desk.watcher.homeLongSent = true := congrArg HomeView.long view
  obtain ⟨lifted, outcome⟩ := receive_release tasksFirst pressTime desk.scene.clock
  rw [← forwarded.reader] at lifted outcome
  unfold Desk.deliver
  rw [handle_release event]
  simp only [handleHomeUp, combo, long, Bool.false_eq_true, if_false, if_true]
  exact ⟨rfl, rfl, noTap, forwarded.noPower, outcome, .inr lifted⟩

end Release

/-! ## After the release -/

section After

variable (tasksFirst : Bool) {releaseTime : Nat} {outcomes : List Outcome} {desk : Desk}

/-- While a tap waits its time left is the plain difference. -/
theorem Tapped.remaining_eq (tapped : Tapped releaseTime desk) :
    remaining (.ofNat releaseTime + powerDoubleClickMs) (.ofNat desk.scene.clock) =
      (releaseTime + 400 - desk.scene.clock : Nat) :=
  remaining_window tapped.since tapped.inTime (by decide)

/-- The tap is due exactly when its window has closed. -/
theorem Tapped.singleDue_eq (tapped : Tapped releaseTime desk) :
    desk.watcher.homeView.singleDue (.ofNat desk.scene.clock) =
      decide (releaseTime + 400 ≤ desk.scene.clock) := by
  obtain ⟨downTime, view⟩ := tapped.view
  rw [view]
  simp only [HomeView.singleDue, tapped.remaining_eq, Bool.true_and]
  exact decide_eq_decide.mpr (by omega)

/-- With Home up no long press falls due. -/
theorem Tapped.notLong (tapped : Tapped releaseTime desk) :
    desk.watcher.homeView.longDue (.ofNat desk.scene.clock) = false := by
  obtain ⟨downTime, view⟩ := tapped.view
  simp [HomeView.longDue, view]

/-- While the double-tap window is open the tap only bounds the sleep. -/
theorem Tapped.swept_early (tapped : Tapped releaseTime desk)
    (early : desk.scene.clock < releaseTime + 400) :
    Tapped releaseTime (desk.swept tasksFirst) ∧
      (desk.swept tasksFirst).scene.clock + desk.top.timeoutMs ≤ releaseTime + 400 := by
  have notDue : desk.watcher.homeView.singleDue (.ofNat desk.scene.clock) = false := by
    rw [tapped.singleDue_eq]
    exact decide_eq_false (Nat.not_le_of_lt early)
  obtain ⟨sameView, noPower, sameScene⟩ :=
    Desk.swept_still tasksFirst tapped.noPower tapped.notLong notDue
  obtain ⟨downTime, view⟩ := tapped.view
  have bound : desk.top.timeoutMs ≤ (releaseTime + 400 - desk.scene.clock : Nat) := by
    have deadline := (sweepFacts (.ofNat desk.scene.clock) tapped.noPower).singleDeadline
      tapped.notLong (by rw [view]) notDue
    rw [view, tapped.remaining_eq] at deadline
    exact deadline
  have inTime := tapped.inTime
  refine ⟨⟨⟨downTime, sameView.trans view⟩, noPower, ?_, ?_, ?_, ?_⟩, ?_⟩
  · exact sameScene ▸ tapped.since
  · exact sameScene ▸ tapped.inTime
  · exact sameScene ▸ tapped.noTasks
  · exact sameScene ▸ tapped.noOutcomes
  · rw [sameScene]
    omega

/-- When the window closes KOReader gets a click, which is a navigation. -/
theorem Tapped.swept_due (tapped : Tapped releaseTime desk)
    (due : desk.scene.clock = releaseTime + 400) :
    Done [.navigation] (desk.swept tasksFirst) := by
  have facts := sweepFacts (.ofNat desk.scene.clock) tapped.noPower
  have isDue : desk.watcher.homeView.singleDue (.ofNat desk.scene.clock) = true := by
    rw [tapped.singleDue_eq]
    exact decide_eq_true (Nat.le_of_eq due.symm)
  have sameLong : desk.watcher.homeView.sweepLong (.ofNat desk.scene.clock) =
      (desk.watcher.homeView, []) := by
    simp [HomeView.sweepLong, tapped.notLong]
  obtain ⟨downTime, view⟩ := tapped.view
  have clicked : (desk.watcher.homeView.sweep (.ofNat desk.scene.clock)).1 =
      { desk.watcher.homeView with pending := false } := by
    simp [HomeView.sweep, sameLong, HomeView.sweepSingle, isDue]
  have scene : (desk.swept tasksFirst).scene =
      [emitKey keyHome 1, .usleep 20000, emitKey keyHome 0].foldl (Scene.follow tasksFirst)
        desk.scene := by
    rw [Desk.swept_scene]
    unfold Desk.top
    rw [facts.timed_eq, sameLong, tapped.notLong, isDue]
    rfl
  have closedView : (desk.swept tasksFirst).watcher.homeView =
      { desk.watcher.homeView with pending := false } := facts.view.trans clicked
  refine ⟨?_, ?_, facts.noPower, ?_, ?_⟩
  · rw [closedView, view]
  · rw [closedView]
  · rw [scene]
    simp [Scene.follow, Scene.wait, emitKey, Reader.receive, Reader.runTasks, Reader.home,
      tapped.noTasks, tapped.noOutcomes]
  · rw [scene]
    simp [Scene.follow, Scene.wait, emitKey, Reader.receive, Reader.runTasks, Reader.home,
      tapped.noTasks]

/-- The loop top does nothing more about a press that is done. -/
theorem Done.swept (done : Done outcomes desk) : Done outcomes (desk.swept tasksFirst) := by
  obtain ⟨sameView, noPower, sameScene⟩ :=
    Desk.swept_of_idle tasksFirst done.up done.noTap done.noPower
  refine ⟨sameView ▸ done.up, sameView ▸ done.noTap, noPower, ?_, ?_⟩
  · exact sameScene ▸ done.outcomes_eq
  · exact sameScene ▸ done.spent

/-- Waiting does nothing more about a press that is done. -/
theorem Done.wait (done : Done outcomes desk) (duration : Nat) :
    Done outcomes (desk.wait duration) :=
  ⟨done.up, done.noTap, done.noPower, done.outcomes_eq, done.spent⟩

/-- A quiet wake does nothing more about a press that is done. -/
theorem Done.advance_quiet {wake : Wake} (done : Done outcomes desk) (quiet : wake.Quiet) :
    Done outcomes (desk.advance tasksFirst wake) := by
  rw [Desk.advance_quiet quiet]
  exact (done.swept tasksFirst).wait _

/-- A tap waits for its window, or has become a navigation. -/
def Clicking (releaseTime : Nat) (desk : Desk) : Prop :=
  Tapped releaseTime desk ∨ Done [.navigation] desk

/-- A quiet wake in time leaves a tap waiting or turns it into its navigation. -/
theorem Clicking.advance_quiet {wake : Wake} (clicking : Clicking releaseTime desk)
    (timely : desk.Timely wake) (quiet : wake.Quiet) :
    Clicking releaseTime (desk.advance tasksFirst wake) := by
  rcases clicking with tapped | done
  · rw [Desk.advance_quiet quiet]
    rcases Nat.lt_or_eq_of_le tapped.inTime with early | due
    · obtain ⟨still, bound⟩ := tapped.swept_early tasksFirst early
      refine .inl ⟨still.view, still.noPower, Nat.le_add_right_of_le still.since, ?_,
        still.noTasks, still.noOutcomes⟩
      have inTime : (wake.delay : Int) ≤ desk.top.timeoutMs := timely
      simp only [Desk.wait, Scene.wait]
      omega
    · exact .inr ((tapped.swept_due tasksFirst due).wait _)
  · exact .inr (done.advance_quiet tasksFirst quiet)

/-- Once the key is up the scheduled functions do nothing. -/
theorem foldl_longPress_of_lifted (tasks : List Nat) {reader : Reader}
    (lifted : reader.homeDownTs = none) :
    tasks.foldl (fun reader _ => reader.longPress) reader = reader := by
  have still : reader.longPress = reader := by simp [Reader.longPress, lifted]
  induction tasks with
  | nil => rfl
  | cons _ rest ih => rw [List.foldl_cons, still, ih]

/-- What has come of a press is not changed by KOReader settling. -/
theorem Done.settle_outcomes (done : Done outcomes desk) (time : Nat) :
    (desk.scene.reader.settle time).outcomes = outcomes := by
  unfold Reader.settle Reader.runTasks
  rcases done.spent with noTasks | lifted
  · rw [noTasks]
    exact done.outcomes_eq
  · refine Eq.trans (congrArg Reader.outcomes (foldl_longPress_of_lifted _ ?_)) done.outcomes_eq
    exact lifted

end After

/-! ## The whole press -/

namespace HomePress

variable {tasksFirst : Bool} (isolated : HomePress tasksFirst)

/-- The desk when the release is about to be read. -/
def held : Desk := (machine tasksFirst).run isolated.pressed isolated.during

/-- The release is one wake after the hold. -/
theorem released_eq :
    isolated.released = isolated.held.advance tasksFirst isolated.release := by
  simp only [released, held, pressed, Machine.run_cons, Machine.run_append, Machine.run_nil]
  rfl

/-- The observation ends with the wakes after the release. -/
theorem final_eq :
    isolated.final = (machine tasksFirst).run isolated.released isolated.after := by
  simp only [final, released, Machine.run_cons, Machine.run_append, Machine.run_nil]

/-- An isolated press is read in time while held, at its release and after it. -/
theorem timely_parts :
    (machine tasksFirst).StepsMeet Desk.Timely isolated.pressed isolated.during ∧
      isolated.held.Timely isolated.release ∧
      (machine tasksFirst).StepsMeet Desk.Timely isolated.released isolated.after := by
  obtain ⟨-, rest⟩ := isolated.timely
  obtain ⟨during, release, after⟩ := Machine.stepsMeet_append.mp rest
  refine ⟨during, release, ?_⟩
  rw [released_eq]
  exact after

/-- When the release is about to be read Home is still held. -/
theorem held_held :
    Held isolated.pressed.scene.clock isolated.start.watcher.homeDoubleConsumed
      isolated.held := by
  have armed : Armed isolated.pressed.scene.clock isolated.start.watcher.homeDoubleConsumed
      isolated.pressed := isolated.rested.press isolated.isPress
  refine Desk.quiet_run (fun desk wake held timely quiet => held.advance_quiet tasksFirst timely
    quiet) isolated.quietDuring isolated.timely_parts.1 (.inl armed)

/-- A done desk stays done until the observation ends. -/
theorem outcomes_of_done {outcomes : List Outcome} (done : Done outcomes isolated.released) :
    isolated.outcomes = outcomes := by
  have final : Done outcomes isolated.final := by
    rw [final_eq]
    exact Desk.quiet_run (fun desk wake done _ quiet => done.advance_quiet tasksFirst quiet)
      isolated.quietAfter isolated.timely_parts.2.2 done
  exact final.settle_outcomes _

/-- A second is enough for the window of a tap to close. -/
theorem outcomes_of_tapped (tapped : Tapped isolated.released.scene.clock isolated.released) :
    isolated.outcomes = [.navigation] := by
  have final : Clicking isolated.released.scene.clock isolated.final := by
    rw [final_eq]
    exact Desk.quiet_run (fun desk wake clicking timely quiet =>
      clicking.advance_quiet tasksFirst timely quiet) isolated.quietAfter
      isolated.timely_parts.2.2 (.inl tapped)
  rcases final with open_ | done
  · have watched : isolated.released.scene.clock + 1000 ≤ isolated.final.scene.clock :=
      isolated.watched
    have inTime := open_.inTime
    omega
  · exact done.settle_outcomes _

/-- What comes of a press: a hold that was not forwarded is a tap or is eaten by the double-tap
flag, a forwarded one is a dialog or a tap. -/
theorem outcomes_cases :
    isolated.duration ≤ 500 ∧
        isolated.outcomes =
          (if isolated.start.watcher.homeDoubleConsumed then [] else [.navigation]) ∨
      500 ≤ isolated.duration ∧
        isolated.outcomes =
          (if Reached tasksFirst isolated.duration then [.dialog] else [.navigation]) := by
  obtain ⟨stimulus, event, advanced⟩ :=
    Desk.advance_home tasksFirst isolated.held isolated.isRelease
  have atRelease := isolated.held_held.wake tasksFirst isolated.timely_parts.2.1
  rw [← released_eq] at advanced
  unfold duration
  rcases atRelease with armed | forwarded
  · obtain ⟨sameClock, fate⟩ := armed.deliver_release tasksFirst event
    rw [← advanced] at sameClock fate
    have inTime := armed.inTime
    refine .inl ⟨by omega, ?_⟩
    rcases fate with ⟨single, tapped⟩ | ⟨double, done⟩
    · rw [← sameClock] at tapped
      rw [single]
      exact isolated.outcomes_of_tapped tapped
    · rw [double]
      exact isolated.outcomes_of_done done
  · obtain ⟨sameClock, done⟩ := forwarded.deliver_release tasksFirst event
    rw [← advanced] at sameClock done
    have since := forwarded.since
    refine .inr ⟨by omega, ?_⟩
    rw [sameClock]
    exact isolated.outcomes_of_done done

/-- An isolated press comes out in KOReader as it was meant exactly when it is a tap that finds
the double-tap flag clear, or a hold long enough for both detectors. -/
theorem survives_iff :
    isolated.Survives ↔
      isolated.duration < 500 ∧ isolated.start.watcher.homeDoubleConsumed = false ∨
        Reached tasksFirst isolated.duration := by
  unfold Survives
  rcases isolated.outcomes_cases with ⟨short, outcome⟩ | ⟨long, outcome⟩
  · have notReached : ¬ Reached tasksFirst isolated.duration := by
      unfold Reached
      omega
    rw [outcome]
    rcases Nat.lt_or_eq_of_le short with shorter | equal
    · rw [if_neg (Nat.not_le_of_lt shorter)]
      cases isolated.start.watcher.homeDoubleConsumed <;> simp [shorter, notReached]
    · -- at 500 ms the release may come first, and then the hold has become a tap
      have notShort : ¬ isolated.duration < 500 := by omega
      rw [if_pos (Nat.le_of_eq equal.symm)]
      cases isolated.start.watcher.homeDoubleConsumed <;> simp [notShort, notReached]
  · have notShort : ¬ isolated.duration < 500 := by omega
    rw [outcome, if_pos long]
    by_cases reached : Reached tasksFirst isolated.duration <;> simp [reached, notShort]

/-! ## Two holds -/

/-- A Home event read after `delay`, with KOReader active. -/
def homeWake (delay : Nat) (value : Int) : Wake where
  delay := delay
  stimulus := some ⟨⟨evKey, keyHome, value⟩, AppFiles.setActiveApp .koreader, ⟨true, true, true⟩⟩

/-- Wakes without an event are quiet. -/
theorem quiet_idle {delays : List Nat} :
    ∀ wake ∈ delays.map (fun delay => (⟨delay, none⟩ : Wake)), wake.Quiet := by
  intro wake member
  obtain ⟨delay, -, rfl⟩ := List.mem_map.mp member
  rintro stimulus ⟨⟩

/-- A hold of 700 ms. -/
def heldFor700 : HomePress true where
  start := {}
  press := homeWake 100 1
  during := [500].map fun delay => ⟨delay, none⟩
  release := homeWake 200 0
  after := [1000].map fun delay => ⟨delay, none⟩
  rested := ⟨rfl, rfl, rfl, rfl, rfl, rfl⟩
  isPress := rfl
  quietDuring := quiet_idle
  isRelease := rfl
  quietAfter := quiet_idle
  timely := by decide
  watched := by decide

/-- A hold of 1200 ms. -/
def heldFor1200 : HomePress true :=
  { heldFor700 with
    release := homeWake 700 0
    isRelease := rfl
    timely := by decide
    watched := by decide }

/-- A hold of 700 ms reaches KOReader as a press of 200 ms and navigates instead. -/
theorem heldFor700_navigates : ¬ heldFor700.Survives := by
  unfold Survives
  decide

/-- A hold of 1200 ms survives. -/
theorem heldFor1200_survives : heldFor1200.Survives := by
  rw [survives_iff]
  decide

end HomePress

end Nookobo.Koreader
