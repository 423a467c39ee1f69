import Nookobo.Semantics.Run
import Nookobo.Watcher.HomeView

/-!
# KOReader's Home key behind the button watcher

The userpatch for this device gives KOReader its own hold detector for Home: a press schedules
a function half a second later, which opens the frontlight dialog unless the key has been
released by then; a release that comes first is a Home navigation. `Reader` is the state of
that handler with the functions `UIManager:scheduleIn` has in store.

`Desk` puts the button watcher and KOReader on one clock, in milliseconds. The watcher reads
the clock at its loop top, sleeps in `select` for at most the timeout it computed there, and
what it writes to the virtual device reaches KOReader at once. Apart from `usleep` its
statements take no time. A scheduled function runs at its time; where that is also the time of
an event, `tasksFirst` says which comes first.
-/

namespace Nookobo.Koreader

open Nookobo.Semantics Nookobo.Watcher

/-! ## The handler of the userpatch -/

/-- What the user sees of a Home key. -/
inductive Outcome where
  /-- `Device:showLightDialog()`. -/
  | dialog
  /-- The handler returns `"Home"`. -/
  | navigation
deriving DecidableEq, Repr

/-- What the handler keeps, with its scheduled functions and what has come of its presses. -/
structure Reader where
  /-- `home_down_ts`. -/
  homeDownTs : Option Nat := none
  homeLongFired : Bool := false
  /-- When the functions that were scheduled and have not run are due. -/
  tasks : List Nat := []
  outcomes : List Outcome := []
deriving DecidableEq, Repr

namespace Reader

/-- The scheduled function. -/
def longPress (reader : Reader) : Reader :=
  if reader.homeDownTs.isSome && !reader.homeLongFired then
    { reader with homeLongFired := true, outcomes := reader.outcomes ++ [.dialog] }
  else reader

/-- Run the scheduled functions that are ready, in the order they were scheduled. -/
def runTasks (ready : Nat → Bool) (reader : Reader) : Reader :=
  (reader.tasks.filter ready).foldl (fun reader _ => reader.longPress)
    { reader with tasks := reader.tasks.filter fun due => !ready due }

/-- `event_map_adapter.Home`. -/
def home (time : Nat) (value : Int) (reader : Reader) : Reader :=
  if value = 1 then
    { reader with
      homeDownTs := some time
      homeLongFired := false
      tasks := reader.tasks ++ [time + 500] }
  else if value = 0 then
    let reader := { reader with homeDownTs := none }
    if reader.homeLongFired then { reader with homeLongFired := false }
    else { reader with outcomes := reader.outcomes ++ [.navigation] }
  else reader

/-- A Home event from the virtual device, after the functions that are due before it. -/
def receive (tasksFirst : Bool) (time : Nat) (value : Int) (reader : Reader) : Reader :=
  (reader.runTasks fun due => if tasksFirst then due ≤ time else due < time).home time value

/-- Everything due by now has run. -/
def settle (time : Nat) (reader : Reader) : Reader := reader.runTasks fun due => due ≤ time

end Reader

/-! ## The two programs on one clock -/

/-- The clock and KOReader. -/
structure Scene where
  clock : Nat := 0
  reader : Reader := {}
deriving DecidableEq, Repr

namespace Scene

/-- Time passes. -/
def wait (duration : Nat) (scene : Scene) : Scene := { scene with clock := scene.clock + duration }

/-- A statement of the watcher as the clock and KOReader see it. -/
def follow (tasksFirst : Bool) (scene : Scene) : Effect → Scene
  | .usleep microseconds => scene.wait (microseconds / 1000)
  | .emit event =>
      if event.type = evKey ∧ event.code = keyHome then
        { scene with reader := scene.reader.receive tasksFirst scene.clock event.value }
      else scene
  | _ => scene

end Scene

/-- The watcher beside them. -/
structure Desk where
  watcher : State := {}
  scene : Scene := {}

/-- An event on the key device with the surroundings its handler may consult. -/
structure Stimulus where
  event : InputEvent
  files : AppFiles
  fb : FbOutcome

/-- The return of `select`: how long after its call, and what was read. -/
structure Wake where
  delay : Nat
  stimulus : Option Stimulus := none

namespace Desk

/-- The loop top at the present time. -/
def top (desk : Desk) : Sweep := sweep (.ofNat desk.scene.clock) desk.watcher

/-- `select` returns no later than its timeout. -/
def Timely (desk : Desk) (wake : Wake) : Prop := wake.delay ≤ desk.top.timeoutMs

instance (desk : Desk) (wake : Wake) : Decidable (desk.Timely wake) :=
  inferInstanceAs (Decidable (_ ≤ _))

/-- One pass of the watcher's loop, with what KOReader makes of it. -/
def advance (tasksFirst : Bool) (desk : Desk) (wake : Wake) : Desk :=
  let scene := (desk.top.effects.foldl (Scene.follow tasksFirst) desk.scene).wait wake.delay
  match wake.stimulus with
  | none => ⟨desk.top.state, scene⟩
  | some stimulus =>
      let outcome :=
        handle ⟨stimulus.event, .ofNat scene.clock, stimulus.files, stimulus.fb⟩ desk.top.state
      ⟨outcome.1, outcome.2.foldl (Scene.follow tasksFirst) scene⟩

end Desk

/-- Watcher and KOReader over any wakes. -/
def machine (tasksFirst : Bool) : Machine Desk Wake where
  initial := {}
  step := Desk.advance tasksFirst

/-- The arrival a wake brings to the watcher. -/
def Desk.arrival (tasksFirst : Bool) (desk : Desk) (wake : Wake) : Option Arrival :=
  wake.stimulus.map fun stimulus =>
    let clock := (desk.top.effects.foldl (Scene.follow tasksFirst) desk.scene).clock
    ⟨stimulus.event, .ofNat (clock + wake.delay), stimulus.files, stimulus.fb⟩

/-- The watcher of a desk makes the passes of the watcher. -/
theorem Desk.advance_watcher (tasksFirst : Bool) (desk : Desk) (wake : Wake) :
    (desk.advance tasksFirst wake).watcher =
      (pass desk.watcher ⟨.ofNat desk.scene.clock, desk.arrival tasksFirst wake⟩).1 := by
  obtain ⟨delay, stimulus⟩ := wake
  cases stimulus <;> rfl

/-! ## An isolated press of Home -/

namespace Wake

/-- No key event. -/
def Quiet (wake : Wake) : Prop :=
  ∀ stimulus, wake.stimulus = some stimulus → stimulus.event.type ≠ evKey

/-- A Home event. -/
def IsHome (value : Int) (wake : Wake) : Prop :=
  wake.stimulus.map Stimulus.event = some ⟨evKey, keyHome, value⟩

end Wake

/-- Nothing is left of earlier keys: Home is up in reading mode, no tap of Home or of Power
waits for its window to close, and KOReader has nothing scheduled. -/
structure Desk.Rested (desk : Desk) : Prop where
  up : desk.watcher.homeDown = false
  reading : desk.watcher.mediaMode = false
  noTap : desk.watcher.homePendingSingle = false
  noPower : desk.watcher.powerPending = false
  noTasks : desk.scene.reader.tasks = []
  noOutcomes : desk.scene.reader.outcomes = []

/-- A press and a release of Home with no other key near them, observed until a second after
the release. -/
structure HomePress (tasksFirst : Bool) where
  start : Desk
  press : Wake
  during : List Wake
  release : Wake
  after : List Wake
  rested : start.Rested
  isPress : press.IsHome 1
  quietDuring : ∀ wake ∈ during, wake.Quiet
  isRelease : release.IsHome 0
  quietAfter : ∀ wake ∈ after, wake.Quiet
  timely : (machine tasksFirst).StepsMeet Desk.Timely start
    (press :: (during ++ release :: after))
  watched : ((machine tasksFirst).run start (press :: (during ++ [release]))).scene.clock + 1000 ≤
    ((machine tasksFirst).run start (press :: (during ++ release :: after))).scene.clock

namespace HomePress

variable {tasksFirst : Bool} (isolated : HomePress tasksFirst)

/-- The desk after the press. -/
def pressed : Desk := (machine tasksFirst).run isolated.start [isolated.press]

/-- The desk after the release. -/
def released : Desk :=
  (machine tasksFirst).run isolated.start
    (isolated.press :: (isolated.during ++ [isolated.release]))

/-- The desk at the end of the observation. -/
def final : Desk :=
  (machine tasksFirst).run isolated.start
    (isolated.press :: (isolated.during ++ isolated.release :: isolated.after))

/-- How long the key was held. -/
def duration : Nat := isolated.released.scene.clock - isolated.pressed.scene.clock

/-- What came of the press in KOReader. -/
def outcomes : List Outcome :=
  (isolated.final.scene.reader.settle isolated.final.scene.clock).outcomes

/-- A hold of half a second opens the dialog once, a shorter one navigates once, and nothing
else happens. -/
def Survives : Prop :=
  isolated.outcomes = if 500 ≤ isolated.duration then [.dialog] else [.navigation]

end HomePress

end Nookobo.Koreader
