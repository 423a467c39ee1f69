import Nookobo.Watcher.PowerPresses

/-!
# The timers of the main loop

Four timers share the timeout of one `select`: the toast, the power key's
single tap, the long press of Home and its deferred single tap. The loop top
does the same for each of them, so `Timer.check` says it once, and
`sweep_checked` says what the four checks leave behind.

The time left is a 64-bit difference cut down to an `int`. `Watch` adds the
clock to the program, and `timers_sound` says on which schedules the cut does
no harm: a timer is looked at within 2^31 ms of its deadline, except the long
press, which the frontlight chord of KOReader re-arms with the time of a press
that may be as old as it likes.
-/

namespace Nookobo.Watcher

open Nookobo.Semantics

/-! ## The four timers -/

/-- The timers in the order the loop top checks them. -/
inductive Timer where
  | toast
  | power
  | longPress
  | singleTap
deriving DecidableEq, Repr

namespace Timer

/-- The timers, in the order the loop top checks them. -/
def all : List Timer := [.toast, .power, .longPress, .singleTap]

/-- The flags that keep a timer waiting. -/
def armed (state : State) : Timer → Bool
  | .toast => state.toastActive
  | .power => state.powerPending
  | .longPress => state.homeDown && !state.homeComboConsumed && !state.homeLongSent
  | .singleTap => state.homePendingSingle

/-- The deadline as the program computes it. -/
def expiry (state : State) : Timer → UInt64
  | .toast => state.toastExpireTime
  | .power => state.powerDownTime + powerDoubleClickMs
  | .longPress => state.homeDownTime + homeLongPressMs
  | .singleTap => state.homeSingleTime + powerDoubleClickMs

/-- What is done when the time has come. -/
def action : Timer → List Effect
  | .toast => [.hideToast]
  | .power => .print .powerSingleTap :: emitKeyClick keyPower
  | .longPress => [.print .homeLongPressDetected, emitKey keyHome 1, emitSyn]
  | .singleTap => .print .homeSingleTap :: emitKeyClick keyHome

/-- What a timer that goes off does to its flags. -/
def disarm (state : State) : Timer → State
  | .toast => { state with toastActive := false }
  | .power => { state with powerPending := false }
  | .longPress => { state with homeLongSent := true, homePendingSingle := false }
  | .singleTap => { state with homePendingSingle := false }

/-- The time left, as the loop top sees it. -/
def left (now : UInt64) (state : State) (timer : Timer) : Int :=
  remaining (timer.expiry state) now

/-- A timer goes off at the loop top. -/
def due (now : UInt64) (state : State) (timer : Timer) : Bool :=
  timer.armed state && decide (timer.left now state ≤ 0)

/-- One stage of the loop top. -/
def check (now : UInt64) (sweep : Sweep) (timer : Timer) : Sweep :=
  if timer.armed sweep.state then
    if timer.left now sweep.state ≤ 0 then
      { sweep with
        state := timer.disarm sweep.state
        effects := sweep.effects ++ timer.action }
    else sweep.tighten (timer.left now sweep.state)
  else sweep

end Timer

namespace State

/-- An active toast has its framebuffer and its backup. -/
def ToastReady (state : State) : Prop :=
  state.toastActive = true → state.fbMem = true ∧ state.toastBackup = true

/-- A tap is deferred only while Home is up. -/
def TapApart (state : State) : Prop :=
  state.homePendingSingle = true → state.homeDown = false

/-- The state without the flags the loop top may clear or set. -/
def still (state : State) : State :=
  { state with
    toastActive := false
    powerPending := false
    homeLongSent := false
    homePendingSingle := false }

end State

/-- A stage that waits lowers the timeout to its time left. -/
theorem Sweep.tighten_timeoutMs (sweep : Sweep) (rem : Int) :
    (sweep.tighten rem).timeoutMs = min sweep.timeoutMs rem := by
  unfold Sweep.tighten
  split
  · next less => exact (Int.min_eq_right (Int.le_of_lt less)).symm
  · next more => exact (Int.min_eq_left (Int.not_lt.mp more)).symm

/-- The power key's stage is the check of its timer. -/
theorem Sweep.power_eq_check (now : UInt64) (sweep : Sweep) :
    sweep.power now = Timer.power.check now sweep := rfl

/-- The long press's stage is the check of its timer. -/
theorem Sweep.longPress_eq_check (now : UInt64) (sweep : Sweep) :
    sweep.longPress now = Timer.longPress.check now sweep := rfl

/-- The single tap's stage is the check of its timer. -/
theorem Sweep.singleTap_eq_check (now : UInt64) (sweep : Sweep) :
    sweep.singleTap now = Timer.singleTap.check now sweep := rfl

/-- The loop top is its four checks. -/
theorem sweep_eq_checks (now : UInt64) {state : State} (ready : state.ToastReady) :
    sweep now state = Timer.all.foldl (Timer.check now) { state := state : Sweep } := by
  have toast : { state := state : Sweep }.toast now = Timer.toast.check now { state := state } := by
    unfold Sweep.toast Timer.check
    by_cases active : state.toastActive = true
    · obtain ⟨mapped, saved⟩ := ready active
      have hidden : hideToast state = ({ state with toastActive := false }, [.hideToast]) := by
        simp [hideToast, active, mapped, saved]
      by_cases expired : remaining state.toastExpireTime now ≤ 0
      · simp only [Timer.armed, Timer.left, Timer.expiry, active, expired, if_true, hidden]
        rfl
      · simp only [Timer.armed, Timer.left, Timer.expiry, active, expired, if_true, if_false]
    · exact (if_neg active).trans (if_neg active).symm
  rw [sweep, toast, Sweep.power_eq_check, Sweep.longPress_eq_check, Sweep.singleTap_eq_check]
  rfl

namespace Timer

/-- Every timer is looked at. -/
theorem mem_all (timer : Timer) : timer ∈ all := by
  cases timer <;> decide

/-- No deadline depends on the flags the loop top may change. -/
theorem expiry_still (state : State) (timer : Timer) :
    timer.expiry state.still = timer.expiry state := by
  cases timer <;> rfl

/-- Disarming changes none of the other variables. -/
theorem still_disarm (state : State) (timer : Timer) :
    (timer.disarm state).still = state.still := by
  cases timer <;> rfl

/-- The time left depends on the variables the loop top leaves alone. -/
theorem left_of_still {first second : State} (same : first.still = second.still) (now : UInt64)
    (timer : Timer) : timer.left now first = timer.left now second := by
  unfold left
  rw [← expiry_still first, same, expiry_still]

/-- A timer that goes off is the only one disarmed: a long press cannot find a deferred tap. -/
theorem armed_disarm {state : State} (apart : state.TapApart) {timer : Timer}
    (armed : timer.armed state = true) (other : Timer) :
    other.armed (timer.disarm state) = (other.armed state && !decide (other = timer)) := by
  cases timer with
  | longPress =>
      have down : state.homeDown = true := by
        simp only [Timer.armed, Bool.and_eq_true] at armed
        exact armed.1.1
      have noTap : state.homePendingSingle = false := by
        by_contra tap
        rw [Bool.not_eq_false] at tap
        exact absurd (apart tap) (by simp [down])
      cases other <;> simp [Timer.armed, disarm, noTap]
  | toast => cases other <;> simp [Timer.armed, disarm]
  | power => cases other <;> simp [Timer.armed, disarm]
  | singleTap => cases other <;> simp [Timer.armed, disarm]

end Timer

/-- What the checks of some timers leave behind. -/
structure Checked (now : UInt64) (state : State) (done : List Timer) (sweep : Sweep) : Prop where
  still : sweep.state.still = state.still
  armed : ∀ timer : Timer, timer.armed sweep.state =
    (timer.armed state && !(decide (timer ∈ done) && timer.due now state))
  effects : sweep.effects = (done.filter (Timer.due now state)).flatMap Timer.action
  positive : 0 < sweep.timeoutMs
  short : sweep.timeoutMs ≤ 1000
  tight : ∀ timer ∈ done, timer.armed state = true → timer.due now state = false →
    sweep.timeoutMs ≤ timer.left now state

namespace Checked

variable {now : UInt64} {state : State} {done : List Timer} {sweep : Sweep}

/-- Before any check nothing is done and the timeout is a second. -/
theorem start (now : UInt64) (state : State) : Checked now state [] { state := state } where
  still := rfl
  armed := by simp
  effects := rfl
  positive := Int.ofNat_succ_pos 999
  short := Int.le_refl 1000
  tight := by simp

/-- The checks keep a deferred tap apart from a held Home key. -/
theorem tapApart (checked : Checked now state done sweep) (apart : state.TapApart) :
    sweep.state.TapApart := by
  intro tap
  have before := checked.armed .singleTap
  have tapped : sweep.state.homePendingSingle = Timer.singleTap.armed sweep.state := rfl
  rw [← tapped, tap] at before
  have pending : state.homePendingSingle = true := by
    by_contra none
    simp [Timer.armed, none] at before
  have sameDown : sweep.state.still.homeDown = state.still.homeDown := by rw [checked.still]
  exact sameDown.trans (apart pending)

/-- What a check has to do: disarm its timer and act if it is due, otherwise no more than take its
time left into account. -/
theorem extend (checked : Checked now state done sweep) {timer : Timer} {next : Sweep}
    (still : next.state.still = sweep.state.still)
    (armed : ∀ other : Timer, other.armed next.state =
      (other.armed sweep.state && !(decide (other = timer) && timer.due now state)))
    (effects : next.effects =
      sweep.effects ++ if timer.due now state = true then timer.action else [])
    (positive : 0 < next.timeoutMs) (shorter : next.timeoutMs ≤ sweep.timeoutMs)
    (tight : timer.armed state = true → timer.due now state = false →
      next.timeoutMs ≤ timer.left now state) : Checked now state (done ++ [timer]) next where
  still := still.trans checked.still
  armed := by
    intro other
    rw [armed, checked.armed other]
    by_cases same : other = timer
    · rw [same]
      cases timer.due now state <;> simp
    · simp [same]
  effects := by
    rw [effects, checked.effects, List.filter_append, List.flatMap_append]
    cases due : timer.due now state <;> simp [due]
  positive := positive
  short := Int.le_trans shorter checked.short
  tight := by
    intro other member isArmed notDue
    rcases List.mem_append.mp member with old | new
    · exact Int.le_trans shorter (checked.tight other old isArmed notDue)
    · rw [List.mem_singleton.mp new] at isArmed notDue ⊢
      exact tight isArmed notDue

/-- A check of a timer that has not been looked at yet. -/
theorem check (checked : Checked now state done sweep) (apart : state.TapApart) {timer : Timer}
    (fresh : timer ∉ done) : Checked now state (done ++ [timer]) (timer.check now sweep) := by
  have sameLeft : timer.left now sweep.state = timer.left now state :=
    Timer.left_of_still checked.still now timer
  have sameArmed : timer.armed sweep.state = timer.armed state := by
    rw [checked.armed timer]
    simp [fresh]
  unfold Timer.check
  rw [sameArmed, sameLeft]
  by_cases armed : timer.armed state = true
  · rw [if_pos armed]
    by_cases expired : timer.left now state ≤ 0
    · have due : timer.due now state = true := by simp [Timer.due, armed, expired]
      have disarmed := Timer.armed_disarm (checked.tapApart apart) (sameArmed.trans armed)
      rw [if_pos expired]
      apply checked.extend
      · exact Timer.still_disarm _ _
      · intro other
        rw [disarmed other, due, Bool.and_true]
      · rw [if_pos due]
      · exact checked.positive
      · exact Int.le_refl _
      · intro _ notDue
        exact absurd due (Bool.eq_false_iff.mp notDue)
    · have notDue : timer.due now state = false := by simp [Timer.due, expired]
      obtain ⟨tightState, tightEffects⟩ := sweep.tighten_state (timer.left now state)
      have bound := sweep.tighten_timeoutMs (timer.left now state)
      rw [if_neg expired]
      apply checked.extend
      · rw [tightState]
      · simp [tightState, notDue]
      · simp [tightEffects, notDue]
      · rw [bound]
        exact Int.lt_min.mpr ⟨checked.positive, Int.not_le.mp expired⟩
      · rw [bound]
        exact Int.min_le_left _ _
      · intro _ _
        rw [bound]
        exact Int.min_le_right _ _
  · have notDue : timer.due now state = false := by simp [Timer.due, armed]
    rw [if_neg armed]
    apply checked.extend
    · rfl
    · simp [notDue]
    · simp [notDue]
    · exact checked.positive
    · exact Int.le_refl _
    · exact fun isArmed => absurd isArmed armed

/-- A timer armed after all checks was armed before and had time left. -/
theorem stays (checked : Checked now state Timer.all sweep) {timer : Timer}
    (armed : timer.armed sweep.state = true) :
    timer.armed state = true ∧ timer.due now state = false ∧ ¬ timer.left now state ≤ 0 := by
  have after := checked.armed timer
  rw [armed] at after
  have stayed : timer.armed state = true ∧ timer.due now state = false := by
    simpa [timer.mem_all] using after.symm
  refine ⟨stayed.1, stayed.2, fun due => ?_⟩
  have notDue := stayed.2
  simp [Timer.due, stayed.1, due] at notDue

end Checked

/-- What the whole loop top leaves behind. -/
theorem sweep_checked (now : UInt64) {state : State} (ready : state.ToastReady)
    (apart : state.TapApart) : Checked now state Timer.all (sweep now state) := by
  rw [sweep_eq_checks now ready]
  have one := (Checked.start now state).check apart (List.not_mem_nil (a := Timer.toast))
  have two := one.check apart (show Timer.power ∉ [Timer.toast] by decide)
  have three := two.check apart (show Timer.longPress ∉ [Timer.toast, .power] by decide)
  exact three.check apart (show Timer.singleTap ∉ [Timer.toast, .power, .longPress] by decide)

/-! ## The narrowing cast -/

/-- The time left is the true one, cut to 32 bits. -/
theorem remaining_eq_bmod (start now : UInt64) {delay : Nat} (small : delay ≤ 2200) :
    remaining (start + .ofNat delay) now =
      Int.bmod (start.toNat + delay - now.toNat) 0x100000000 := by
  have delayed : (UInt64.ofNat delay).toNat = delay := by
    refine UInt64.toNat_ofNat_of_lt' ?_
    simp only [UInt64.size]
    omega
  have bound := now.toNat_lt
  unfold remaining
  rw [UInt64.toNat_sub, UInt64.toNat_add, delayed]
  simp only [Int.bmod]
  omega

/-- Ahead of the deadline nothing is cut. -/
theorem remaining_ahead {start now : UInt64} {delay : Nat} (small : delay ≤ 2200)
    (past : start.toNat ≤ now.toNat) (ahead : now.toNat < start.toNat + delay) :
    remaining (start + .ofNat delay) now = (start.toNat + delay - now.toNat : Int) := by
  rw [remaining_eq_bmod start now small]
  exact Int.bmod_eq_of_le_mul_two (by omega) (by omega)

/-- Past the deadline the cut hides it for one half of every 2^32 ms. -/
theorem remaining_over {start now : UInt64} {delay : Nat} (small : delay ≤ 2200)
    (expired : start.toNat + delay ≤ now.toNat) :
    remaining (start + .ofNat delay) now ≤ 0 ↔
      (now.toNat - (start.toNat + delay)) % 0x100000000 ≤ 0x80000000 := by
  rw [remaining_eq_bmod start now small]
  simp only [Int.bmod]
  omega

/-! ## What an event does to the timers -/

/-- An effect that shows a toast. -/
def Effect.isShowToast : Effect → Bool
  | .showToast _ _ => true
  | _ => false

/-- The framebuffer comes with its backup, and an active toast with the framebuffer. -/
def ToastView.Ready (view : ToastView) : Prop :=
  (view.fbMem = true → view.backup = true) ∧ (view.active = true → view.fbMem = true)

/-- A handler that shows a toast arms its timer from the time of the event, any other leaves
the timer alone. -/
def MovesToast (arrival : Arrival) (state : State) (outcome : State × List Effect) : Prop :=
  (state.toastView.Ready → outcome.1.toastView.Ready) ∧
    (outcome.2.any Effect.isShowToast = false ∧
        outcome.1.toastActive = state.toastActive ∧
        outcome.1.toastExpireTime = state.toastExpireTime ∨
      outcome.2.any Effect.isShowToast = true ∧ outcome.1.toastActive = true ∧
        outcome.1.toastExpireTime = arrival.now + 2200)

/-- A handler that leaves the toast's variables alone leaves its timer alone. -/
theorem MovesToast.of_keeps {arrival : Arrival} {state : State} {outcome : State × List Effect}
    (view : outcome.1.toastView = state.toastView)
    (quiet : outcome.2.any Effect.isShowToast = false) : MovesToast arrival state outcome := by
  refine ⟨fun ready => view ▸ ready, .inl ⟨quiet, ?_, ?_⟩⟩
  · exact congrArg ToastView.active view
  · exact congrArg ToastView.expireTime view

/-- `fb_init` leaves the toast as it is, and brings its backup with the framebuffer. -/
theorem fbInit_toast (outcome : FbOutcome) (state : State)
    (allocates : outcome.mapped = true → outcome.toastAllocated = true) :
    (state.toastView.Ready → (state.fbInit outcome).toastView.Ready) ∧
      (state.fbInit outcome).toastActive = state.toastActive ∧
      (state.fbInit outcome).toastExpireTime = state.toastExpireTime := by
  unfold State.fbInit
  split
  · exact ⟨id, rfl, rfl⟩
  · split
    · next mapped => exact ⟨fun _ => ⟨fun _ => allocates mapped, fun _ => rfl⟩, rfl, rfl⟩
    · exact ⟨id, rfl, rfl⟩

/-- The rule every handler's toast follows. -/
theorem movesToast_rule (arrival : Arrival)
    (allocates : arrival.fb.mapped = true → arrival.fb.toastAllocated = true) :
    HandlerRule arrival (MovesToast arrival) where
  andThen := by
    rintro state first second ⟨ready, timer⟩ ⟨ready', timer'⟩
    refine ⟨fun start => ready' (ready start), ?_⟩
    rcases timer' with ⟨quiet', active', expire'⟩ | ⟨shown', active', expire'⟩
    · rcases timer with ⟨quiet, active, expire⟩ | ⟨shown, active, expire⟩
      · exact .inl ⟨by simp [quiet, quiet'], active'.trans active, expire'.trans expire⟩
      · exact .inr ⟨by simp [shown], active'.trans active, expire'.trans expire⟩
    · exact .inr ⟨by simp [shown'], active', expire'⟩
  plain := by
    intro before after effects _ view plain
    refine .of_keeps view ?_
    rw [List.any_eq_false]
    intro effect member
    have harmless := plain effect member
    cases effect with
    | showToast title subtitle => exact absurd harmless Bool.false_ne_true
    | _ => exact Bool.false_ne_true
  showToast := by
    intro title subtitle state
    obtain ⟨ready, active, expire⟩ := fbInit_toast arrival.fb state allocates
    unfold Watcher.showToast
    dsimp only
    split
    · exact ⟨ready, .inl ⟨rfl, active, expire⟩⟩
    · next mapped =>
      rw [Bool.not_eq_true, Bool.not_eq_false'] at mapped
      exact ⟨fun start => ⟨(ready start).1, fun _ => mapped⟩, .inr ⟨rfl, rfl, rfl⟩⟩
  showMediaCard := by
    intro status state
    obtain ⟨ready, active, expire⟩ := fbInit_toast arrival.fb state allocates
    unfold Watcher.showMediaCard
    dsimp only
    split
    · exact ⟨ready, .inl ⟨rfl, active, expire⟩⟩
    · exact ⟨ready, .inl ⟨rfl, active, expire⟩⟩
  hideMediaCard := by
    intro state
    unfold Watcher.hideMediaCard
    split
    · exact .of_keeps rfl rfl
    · exact .of_keeps rfl rfl

/-- Every event shows a toast from its own time or leaves the timer alone. -/
theorem handle_movesToast {arrival : Arrival}
    (allocates : arrival.fb.mapped = true → arrival.fb.toastAllocated = true) (state : State) :
    MovesToast arrival state (handle arrival state) := by
  by_cases power : arrival.event.isPower
  · have handled : handle arrival state = handlePower arrival state := if_pos power
    rw [handled]
    unfold handlePower
    split
    · split
      · exact .of_keeps rfl rfl
      · exact .of_keeps rfl rfl
    · exact .of_keeps rfl rfl
  · exact (movesToast_rule arrival allocates).handle power state

/-- A press of the power key that waits was waiting before or has just come. -/
theorem handle_power_time (arrival : Arrival) (state : State)
    (waits : (handle arrival state).1.powerPending = true) :
    state.powerPending = true ∧
        (handle arrival state).1.powerDownTime = state.powerDownTime ∨
      (handle arrival state).1.powerDownTime = arrival.now := by
  by_cases power : arrival.event.isPower
  · have handled : handle arrival state = handlePower arrival state := if_pos power
    rw [handled] at waits ⊢
    unfold handlePower at waits ⊢
    split at waits
    · split at waits
      · exact absurd waits (by simp)
      · next pressed alone =>
        rw [if_pos pressed, if_neg alone]
        exact .inr rfl
    · next other =>
      rw [if_neg other]
      exact .inl ⟨waits, rfl⟩
  · have view := ((keepsPower_rule arrival).handle power state).1
    have pending := congrArg PowerView.pending view
    exact .inl ⟨pending.symm.trans waits, congrArg PowerView.downTime view⟩

namespace HomeView

/-- The Home timers after an event: still running, or started by it; and a tap is deferred only
while Home is up. -/
structure TimesFrom (now : UInt64) (before after : HomeView) : Prop where
  down : after.down = true →
    before.down = true ∧ after.downTime = before.downTime ∨ after.downTime = now
  pending : after.pending = true →
    before.pending = true ∧ after.singleTime = before.singleTime ∨ after.singleTime = now
  apart : (before.pending = true → before.down = false) →
    after.pending = true → after.down = false

/-- A handler that leaves the view alone leaves its times alone. -/
theorem TimesFrom.refl (now : UInt64) (view : HomeView) : TimesFrom now view view where
  down := fun down => .inl ⟨down, rfl⟩
  pending := fun pending => .inl ⟨pending, rfl⟩
  apart := id

/-- A press starts the time of the hold. -/
theorem homeDown_times (now : UInt64) (view : HomeView) :
    TimesFrom now view (view.homeDown now).1 where
  down := fun _ => .inr rfl
  pending := fun pending => absurd pending (by simp [homeDown])
  apart := fun _ pending => absurd pending (by simp [homeDown])

/-- A release starts the time of a tap or nothing. -/
theorem homeUp_times (now : UInt64) (view : HomeView) :
    TimesFrom now view (view.homeUp now).1 := by
  obtain ⟨up, _⟩ := homeUp_flags now view
  refine ⟨fun down => absurd down (by simp [up]), ?_, fun _ _ => up⟩
  unfold homeUp
  split
  · exact fun pending => .inl ⟨pending, rfl⟩
  · split
    · exact fun pending => .inl ⟨pending, rfl⟩
    · split
      · exact fun pending => .inl ⟨pending, rfl⟩
      · split
        · exact fun pending => .inl ⟨pending, rfl⟩
        · exact fun _ => .inr rfl

/-- Every event leaves the Home timers running or starts them itself. -/
theorem handle_times (arrival : Arrival) (view : HomeView) :
    TimesFrom arrival.now view (view.handle arrival).1 := by
  unfold handle
  split
  · split
    · exact homeDown_times arrival.now view
    · split
      · exact homeUp_times arrival.now view
      · exact .refl arrival.now view
  · split
    · rcases page_cases arrival view with ⟨_, _, chorded⟩ | ⟨same, _⟩
      · rw [chorded]
        exact ⟨fun down => .inl ⟨down, rfl⟩, fun pending => absurd pending (by simp [chord]),
          fun _ pending => absurd pending (by simp [chord])⟩
      · rw [same]
        exact .refl arrival.now view
    · exact .refl arrival.now view

end HomeView

/-! ## The program on a clock -/

/-- The watcher's state with the clock readings its timers are judged by. -/
structure Watch where
  state : State := {}
  /-- When the toast was last shown. -/
  toastTime : UInt64 := 0
  /-- The reading of the last loop top. -/
  lastTop : Option UInt64 := none
  lastReading : UInt64 := 0

namespace Timer

/-- The reading a timer was armed with. -/
def start (watch : Watch) : Timer → UInt64
  | .toast => watch.toastTime
  | .power => watch.state.powerDownTime
  | .longPress => watch.state.homeDownTime
  | .singleTap => watch.state.homeSingleTime

/-- How long after its start a timer is due. -/
def delay : Timer → Nat
  | .toast => 2200
  | .power => 400
  | .longPress => 500
  | .singleTap => 400

/-- The deadline in true time. -/
def deadline (watch : Watch) (timer : Timer) : Nat := (timer.start watch).toNat + timer.delay

end Timer

namespace Watch

/-- The loop top. -/
def swept (watch : Watch) (now : UInt64) : Watch :=
  { watch with
    state := (sweep now watch.state).state
    lastTop := some now
    lastReading := now }

/-- The handling of one event, with its reading. -/
def deliver (watch : Watch) (arrival : Arrival) : Watch :=
  let outcome := handle arrival watch.state
  { watch with
    state := outcome.1
    toastTime := if outcome.2.any Effect.isShowToast then arrival.now else watch.toastTime
    lastReading := arrival.now }

/-- One pass: the loop top, then the event if one came. -/
def advance (watch : Watch) (input : Pass) : Watch :=
  match input.arrival with
  | none => watch.swept input.top
  | some arrival => (watch.swept input.top).deliver arrival

/-- The clock never goes back, successive loop tops are less than 2^31 ms apart, and a mapped
framebuffer comes with its backup. -/
def Steady (watch : Watch) (input : Pass) : Prop :=
  watch.lastReading.toNat ≤ input.top.toNat ∧
    (∀ last ∈ watch.lastTop, input.top.toNat - last.toNat < 0x80000000) ∧
    ∀ arrival ∈ input.arrival, input.top.toNat ≤ arrival.now.toNat ∧
      (arrival.fb.mapped = true → arrival.fb.toastAllocated = true)

/-- When `select` is called, the deadlines of all armed timers lie ahead of the loop top. -/
def DeadlinesAhead (watch : Watch) (input : Pass) : Prop :=
  ∀ timer ∈ Timer.all, timer.armed (sweep input.top watch.state).state = true →
    input.top.toNat < timer.deadline watch

/-- The loop top does nothing but the actions of timers whose deadline has come, and `select` is
called with the other deadlines ahead and with a timeout of 1 to 1000 ms that goes beyond none of
them. -/
def Sound (watch : Watch) (input : Pass) : Prop :=
  (∃ fired : List Timer, (sweep input.top watch.state).effects = fired.flatMap Timer.action ∧
      ∀ timer ∈ fired, timer.deadline watch ≤ input.top.toNat) ∧
    watch.DeadlinesAhead input ∧
    0 < (sweep input.top watch.state).timeoutMs ∧
    (sweep input.top watch.state).timeoutMs ≤ 1000 ∧
    ∀ timer : Timer, timer.armed (sweep input.top watch.state).state = true →
      (sweep input.top watch.state).timeoutMs ≤ timer.deadline watch - input.top.toNat

/-- The deadline of an armed long press lies ahead, or 0 to 2^31 ms back modulo 2^32. -/
def LongPressSeen (watch : Watch) (input : Pass) : Prop :=
  Timer.longPress.armed watch.state = true →
    input.top.toNat < Timer.longPress.deadline watch ∨
      (input.top.toNat - Timer.longPress.deadline watch) % 0x100000000 ≤ 0x80000000

instance (watch : Watch) (input : Pass) : Decidable (watch.Steady input) :=
  -- by the option, not by the 2^64 readings
  have : Decidable (∀ last ∈ watch.lastTop, input.top.toNat - last.toNat < 0x80000000) :=
    Option.decidableForallMem watch.lastTop
  inferInstanceAs (Decidable (_ ∧ _))

instance (watch : Watch) (input : Pass) : Decidable (watch.DeadlinesAhead input) :=
  inferInstanceAs (Decidable (∀ timer ∈ Timer.all, _))

instance (watch : Watch) (input : Pass) : Decidable (watch.LongPressSeen input) :=
  inferInstanceAs (Decidable (_ → _))

end Watch

/-- The button watcher over passes of its main loop, with its clock. -/
def clockedMachine : Machine Watch Pass where
  initial := {}
  step := Watch.advance

namespace Timer

/-- The press behind a long press counts as long as Home is down, armed or not. -/
def live (state : State) : Timer → Bool
  | .longPress => state.homeDown
  | timer => timer.armed state

/-- An armed timer has a start that counts. -/
theorem live_of_armed {state : State} {timer : Timer} (armed : timer.armed state = true) :
    timer.live state = true := by
  cases timer with
  | longPress =>
      simp only [Timer.armed, Bool.and_eq_true] at armed
      exact armed.1.1
  | toast => exact armed
  | power => exact armed
  | singleTap => exact armed

/-- The loop top leaves the times alone. -/
theorem start_of_still {first second : Watch} (toast : first.toastTime = second.toastTime)
    (same : first.state.still = second.state.still) (timer : Timer) :
    timer.start first = timer.start second := by
  have power : first.state.still.powerDownTime = second.state.still.powerDownTime := by
    rw [same]
  have down : first.state.still.homeDownTime = second.state.still.homeDownTime := by
    rw [same]
  have single : first.state.still.homeSingleTime = second.state.still.homeSingleTime := by
    rw [same]
  cases timer with
  | toast => exact toast
  | power => exact power
  | longPress => exact down
  | singleTap => exact single

/-- No timer waits longer than the toast. -/
theorem delay_le (timer : Timer) : timer.delay ≤ 2200 := by
  cases timer <;> decide

/-- Every timer waits. -/
theorem delay_pos (timer : Timer) : 0 < timer.delay := by
  cases timer <;> decide

end Timer

namespace Watch

/-- What every pass of the main loop keeps. -/
structure Kept (watch : Watch) : Prop where
  ready : watch.state.toastView.Ready
  apart : watch.state.TapApart
  expires : watch.state.toastActive = true →
    watch.state.toastExpireTime = watch.toastTime + 2200
  past : ∀ timer : Timer, timer.live watch.state = true →
    (timer.start watch).toNat ≤ watch.lastReading.toNat
  ahead : ∀ timer : Timer, timer ≠ .longPress → timer.armed watch.state = true →
    ∃ last ∈ watch.lastTop, last.toNat < timer.deadline watch

namespace Kept

variable {watch : Watch} {input : Pass}

/-- An active toast can be hidden. -/
theorem toastReady (kept : watch.Kept) : watch.state.ToastReady := by
  intro active
  have mapped := kept.ready.2 active
  exact ⟨mapped, kept.ready.1 mapped⟩

/-- The program's deadline is the true one up to the wrap of the clock. -/
theorem expiry_eq (kept : watch.Kept) {timer : Timer} (armed : timer.armed watch.state = true) :
    timer.expiry watch.state = timer.start watch + .ofNat timer.delay := by
  cases timer with
  | toast => exact kept.expires armed
  | power => rfl
  | longPress => rfl
  | singleTap => rfl

/-- A timer looked at in time shows as due exactly when it is. -/
theorem left_ahead (kept : watch.Kept) {now : UInt64}
    (later : watch.lastReading.toNat ≤ now.toNat) {timer : Timer}
    (armed : timer.armed watch.state = true) (ahead : now.toNat < timer.deadline watch) :
    timer.left now watch.state = (timer.deadline watch : Int) - now.toNat := by
  have past := kept.past timer (Timer.live_of_armed armed)
  unfold Timer.left Timer.deadline at *
  rw [kept.expiry_eq armed, remaining_ahead timer.delay_le (Nat.le_trans past later) ahead]
  omega

/-- A timer found expired shows as due up to 2^31 ms after its deadline, modulo the wrap. -/
theorem left_over (kept : watch.Kept) {now : UInt64} {timer : Timer}
    (armed : timer.armed watch.state = true) (expired : timer.deadline watch ≤ now.toNat) :
    timer.left now watch.state ≤ 0 ↔
      (now.toNat - timer.deadline watch) % 0x100000000 ≤ 0x80000000 := by
  unfold Timer.left Timer.deadline at *
  rw [kept.expiry_eq armed]
  exact remaining_over timer.delay_le expired

/-- The loop top sees an armed timer as due exactly when its deadline has come. -/
def Seen (watch : Watch) (now : UInt64) (timer : Timer) : Prop :=
  timer.armed watch.state = true →
    (timer.left now watch.state ≤ 0 ↔ timer.deadline watch ≤ now.toNat)

/-- A timer whose deadline was ahead of the last loop top. -/
theorem seen_of_steady (kept : watch.Kept) (steady : watch.Steady input) {timer : Timer}
    (notLong : timer ≠ .longPress) : Seen watch input.top timer := by
  intro armed
  obtain ⟨later, close, _⟩ := steady
  obtain ⟨last, isLast, ahead⟩ := kept.ahead timer notLong armed
  have gap := close last isLast
  by_cases expired : timer.deadline watch ≤ input.top.toNat
  · refine ⟨fun _ => expired, fun _ => (kept.left_over armed expired).mpr ?_⟩
    omega
  · have left := kept.left_ahead later armed (Nat.lt_of_not_le expired)
    refine ⟨fun due => ?_, fun isOver => absurd isOver expired⟩
    omega

/-- The long press is seen as it is exactly under the bound on how late it is found. -/
theorem seen_longPress_iff (kept : watch.Kept)
    (later : watch.lastReading.toNat ≤ input.top.toNat) :
    Seen watch input.top .longPress ↔ watch.LongPressSeen input := by
  unfold Seen LongPressSeen
  refine imp_congr_right fun armed => ?_
  by_cases expired : Timer.longPress.deadline watch ≤ input.top.toNat
  · rw [kept.left_over armed expired]
    constructor
    · exact fun seen => .inr (seen.mpr expired)
    · rintro (ahead | near)
      · exact absurd expired (Nat.not_le_of_lt ahead)
      · exact ⟨fun _ => expired, fun _ => near⟩
  · have ahead := Nat.lt_of_not_le expired
    have left := kept.left_ahead later armed ahead
    refine ⟨fun _ => .inl ahead, fun _ => ⟨fun due => ?_, fun isOver => absurd isOver expired⟩⟩
    omega

/-- The loop top is sound when it sees every timer rightly, and only then. -/
theorem sound_iff_seen (kept : watch.Kept)
    (later : watch.lastReading.toNat ≤ input.top.toNat) :
    watch.Sound input ↔ ∀ timer, Seen watch input.top timer := by
  have checked := sweep_checked input.top kept.toastReady kept.apart
  constructor
  · rintro ⟨_, ahead, _⟩ timer armed
    by_cases expired : timer.deadline watch ≤ input.top.toNat
    · refine ⟨fun _ => expired, fun _ => ?_⟩
      by_contra notDue
      have stays : timer.armed (sweep input.top watch.state).state = true := by
        rw [checked.armed timer]
        simp [armed, Timer.due, notDue]
      exact absurd expired (Nat.not_le_of_lt (ahead timer timer.mem_all stays))
    · have left := kept.left_ahead later armed (Nat.lt_of_not_le expired)
      refine ⟨fun due => ?_, fun isOver => absurd isOver expired⟩
      omega
  · intro seen
    have ahead : watch.DeadlinesAhead input := by
      intro timer _ stays
      obtain ⟨armed, _, positive⟩ := checked.stays stays
      rw [seen timer armed] at positive
      exact Nat.lt_of_not_le positive
    refine ⟨⟨_, checked.effects, ?_⟩, ahead, checked.positive, checked.short, ?_⟩
    · intro timer fired
      have due := (List.mem_filter.mp fired).2
      simp only [Timer.due, Bool.and_eq_true, decide_eq_true_eq] at due
      exact (seen timer due.1).mp due.2
    · intro timer stays
      obtain ⟨armed, notDue, _⟩ := checked.stays stays
      rw [← kept.left_ahead later armed (ahead timer timer.mem_all stays)]
      exact checked.tight timer timer.mem_all armed notDue

/-- A pass does as it should exactly when the long press is seen as it is. -/
theorem sound_iff (kept : watch.Kept) (steady : watch.Steady input) :
    watch.Sound input ↔ watch.LongPressSeen input := by
  rw [kept.sound_iff_seen steady.1, ← kept.seen_longPress_iff steady.1]
  constructor
  · exact fun seen => seen .longPress
  · intro long timer
    by_cases isLong : timer = .longPress
    · rw [isLong]
      exact long
    · exact kept.seen_of_steady steady isLong

/-! ### What the two halves of a pass keep -/

/-- The loop top keeps what every pass keeps. -/
theorem swept (kept : watch.Kept) (steady : watch.Steady input) :
    (watch.swept input.top).Kept := by
  have checked := sweep_checked input.top kept.toastReady kept.apart
  have sameStart := Timer.start_of_still
    (show (watch.swept input.top).toastTime = watch.toastTime from rfl) checked.still
  have stays : ∀ timer : Timer, timer.armed (watch.swept input.top).state = true →
      timer.armed watch.state = true ∧ ¬ timer.left input.top watch.state ≤ 0 := by
    intro timer armed
    obtain ⟨before, _, positive⟩ := checked.stays armed
    exact ⟨before, positive⟩
  have mapped : (watch.swept input.top).state.still.fbMem = watch.state.still.fbMem := by
    rw [show (watch.swept input.top).state.still = watch.state.still from checked.still]
  have saved :
      (watch.swept input.top).state.still.toastBackup = watch.state.still.toastBackup := by
    rw [show (watch.swept input.top).state.still = watch.state.still from checked.still]
  have expire : (watch.swept input.top).state.still.toastExpireTime =
      watch.state.still.toastExpireTime := by
    rw [show (watch.swept input.top).state.still = watch.state.still from checked.still]
  constructor
  · refine ⟨fun isMapped => ?_, fun active => ?_⟩
    · exact saved.trans (kept.ready.1 (mapped.symm.trans isMapped))
    · exact mapped.trans (kept.ready.2 (stays .toast active).1)
  · exact checked.tapApart kept.apart
  · exact fun active => expire.trans (kept.expires (stays .toast active).1)
  · intro timer live
    rw [sameStart timer]
    refine Nat.le_trans (kept.past timer ?_) steady.1
    cases timer with
    | longPress =>
        have down : (watch.swept input.top).state.still.homeDown = watch.state.still.homeDown := by
          rw [show (watch.swept input.top).state.still = watch.state.still from checked.still]
        exact down.symm.trans live
    | toast => exact (stays .toast live).1
    | power => exact (stays .power live).1
    | singleTap => exact (stays .singleTap live).1
  · intro timer notLong armed
    obtain ⟨before, positive⟩ := stays timer armed
    refine ⟨input.top, rfl, ?_⟩
    unfold Timer.deadline
    rw [sameStart timer]
    rw [kept.seen_of_steady steady notLong before] at positive
    exact Nat.lt_of_not_le positive

/-- A live timer was live before the event, or was started by it. -/
theorem deliver_live (watch : Watch) {arrival : Arrival}
    (allocates : arrival.fb.mapped = true → arrival.fb.toastAllocated = true) (timer : Timer)
    (live : timer.live (watch.deliver arrival).state = true) :
    timer.live watch.state = true ∧ timer.start (watch.deliver arrival) = timer.start watch ∨
      timer.start (watch.deliver arrival) = arrival.now := by
  obtain ⟨_, toast⟩ := handle_movesToast allocates watch.state
  have home := HomeView.handle_times arrival watch.state.homeView
  rw [← (handle_homeView arrival watch.state).1] at home
  cases timer with
  | toast =>
      rcases toast with ⟨quiet, active, _⟩ | ⟨shown, _, _⟩
      · refine .inl ⟨active.symm.trans live, ?_⟩
        simp [Timer.start, deliver, quiet]
      · refine .inr ?_
        simp [Timer.start, deliver, shown]
  | power => exact handle_power_time arrival watch.state live
  | longPress => exact home.down live
  | singleTap => exact home.pending live

/-- The handling of an event keeps what every pass keeps. -/
theorem deliver (kept : watch.Kept) {arrival : Arrival}
    (later : watch.lastReading.toNat ≤ arrival.now.toNat)
    (isTop : watch.lastTop = some watch.lastReading)
    (allocates : arrival.fb.mapped = true → arrival.fb.toastAllocated = true) :
    (watch.deliver arrival).Kept := by
  obtain ⟨ready, toast⟩ := handle_movesToast allocates watch.state
  have home := HomeView.handle_times arrival watch.state.homeView
  rw [← (handle_homeView arrival watch.state).1] at home
  constructor
  · exact ready kept.ready
  · exact home.apart kept.apart
  · intro active
    rcases toast with ⟨quiet, same, expire⟩ | ⟨shown, _, expire⟩
    · refine expire.trans ((kept.expires (same.symm.trans active)).trans ?_)
      simp [Watch.deliver, quiet]
    · refine expire.trans ?_
      simp [Watch.deliver, shown]
  · intro timer live
    rcases deliver_live watch allocates timer live with ⟨before, same⟩ | started
    · rw [same]
      exact Nat.le_trans (kept.past timer before) later
    · rw [started]
      exact Nat.le_refl _
  · intro timer notLong armed
    have positive := timer.delay_pos
    refine ⟨watch.lastReading, isTop, ?_⟩
    unfold Timer.deadline
    rcases deliver_live watch allocates timer (Timer.live_of_armed armed) with
      ⟨before, same⟩ | started
    · have wasArmed : timer.armed watch.state = true := by
        cases timer with
        | longPress => exact absurd rfl notLong
        | toast => exact before
        | power => exact before
        | singleTap => exact before
      obtain ⟨last, isLast, ahead⟩ := kept.ahead timer notLong wasArmed
      rw [isTop] at isLast
      cases isLast
      rw [same]
      exact ahead
    · rw [started]
      omega

/-- A pass keeps what every pass keeps. -/
theorem advance (kept : watch.Kept) (steady : watch.Steady input) :
    (watch.advance input).Kept := by
  have swept := kept.swept steady
  unfold Watch.advance
  obtain ⟨top, arrival⟩ := input
  cases arrival with
  | none => exact swept
  | some arrival =>
      obtain ⟨later, allocates⟩ := steady.2.2 arrival rfl
      exact swept.deliver later rfl allocates

end Kept

end Watch

/-- Along a steady clock the timers are sound exactly on those schedules on which every armed
long press is seen within its window. -/
theorem timers_sound (inputs : List Pass)
    (steady : clockedMachine.StepsMeet Watch.Steady clockedMachine.initial inputs) :
    clockedMachine.StepsMeet Watch.Sound clockedMachine.initial inputs ↔
      clockedMachine.StepsMeet Watch.LongPressSeen clockedMachine.initial inputs := by
  refine Machine.stepsMeet_iff Watch.Kept ?_ ?_ ?_ steady
  · exact fun watch input kept steady => kept.advance steady
  · exact fun watch input kept steady => kept.sound_iff steady
  · refine ⟨⟨?_, ?_⟩, ?_, ?_, ?_, ?_⟩
    · exact fun mapped => absurd mapped Bool.false_ne_true
    · exact fun active => absurd active Bool.false_ne_true
    · exact fun pending => absurd pending Bool.false_ne_true
    · exact fun active => absurd active Bool.false_ne_true
    · intro timer live
      cases timer <;> exact absurd live Bool.false_ne_true
    · intro timer _ armed
      cases timer <;> exact absurd armed Bool.false_ne_true

/-- A long press and a power tap, each in its time. -/
theorem timers_sound_long_press_and_tap :
    clockedMachine.StepsMeet Watch.Steady clockedMachine.initial
        [.key 1000 keyHome 1 .koreader, .key 1300 keyPower 1 .koreader, .idle 1500,
          .idle 1700, .key 1900 keyHome 0 .koreader] ∧
      clockedMachine.StepsMeet Watch.Sound clockedMachine.initial
        [.key 1000 keyHome 1 .koreader, .key 1300 keyPower 1 .koreader, .idle 1500,
          .idle 1700, .key 1900 keyHome 0 .koreader] :=
  ⟨by decide +kernel, (timers_sound _ (by decide +kernel)).mpr (by decide +kernel)⟩

/-- Home + Bottom Right, 25 days of Home held down, then Home + Top Left in KOReader: the second
chord gives the combo flag back and so arms the long press whose deadline passed 25 days ago. -/
def longHold : List Pass :=
  [.key 1000 keyHome 1 .koreader, .key 1100 194 1 .koreader, .key 1200 194 0 .koreader,
    .idle 1000001000, .idle 2000001000, .key 2160000000 191 1 .koreader, .idle 2160000600]

/-- The loop top after it sees the old deadline ahead and calls `select` with the timer armed. -/
theorem longHold_deadline_passed :
    clockedMachine.StepsMeet Watch.Steady clockedMachine.initial longHold ∧
      ¬ clockedMachine.StepsMeet Watch.Sound clockedMachine.initial longHold := by
  refine ⟨by decide +kernel, fun sound => ?_⟩
  have ahead : clockedMachine.StepsMeet Watch.DeadlinesAhead clockedMachine.initial longHold :=
    sound.mono fun _ _ isSound => isSound.2.1
  exact absurd ahead (by decide +kernel)

end Nookobo.Watcher
