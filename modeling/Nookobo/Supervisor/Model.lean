import Mathlib.Data.List.Infix
import Nookobo.Semantics.Run
import Nookobo.Watcher.HomeView

/-!
# The reader supervisor and the chords that steer it

Three programs share `/tmp/current_app` and `/tmp/active_reader`: the supervisor
loop of `init_system.sh` with the launcher it runs, and the button watcher. Each
shell line that touches a file and each of the watcher's two writes is one step;
so is the watcher's `killall`. `Stage` is the line the supervisor or its launcher
stands at, `Duty` the line of the watcher.

What ends an application is not ours to decide, so it is part of the label: the
application may exit by itself, KOReader may ask for a restart, and a launcher may
give up before it starts anything.
-/

namespace Nookobo.Supervisor

open Nookobo.Semantics Nookobo.Watcher

/-- Which launchers beside KOReader's are executable. -/
structure Installation where
  plato : Bool
  browser : Bool
deriving DecidableEq, Repr

namespace Installation

/-- The launcher of an application that can be executed. -/
def executable (installation : Installation) : App → Bool
  | .koreader => true
  | .plato => installation.plato
  | .netsurf => installation.browser

/-- The branch of the supervisor loop taken for a name. -/
def branch (installation : Installation) (app : App) : App :=
  if installation.executable app then app else .koreader

end Installation

/-- Where the supervisor or the launcher it waits for stands. -/
inductive Stage where
  /-- `echo koreader > /tmp/current_app` before the loop. -/
  | bootCurrent
  /-- `echo koreader > /tmp/active_reader` before the loop. -/
  | bootReader
  /-- `ACTIVE=$(cat /tmp/current_app || cat /tmp/active_reader || echo koreader)`. -/
  | reading
  /-- The branch is chosen, its launcher not yet started. -/
  | chosen (app : App)
  /-- The launcher runs, the application does not yet. -/
  | starting (app : App)
  | alive (app : App)
  /-- The two writes at the end of `start_plato.sh`. -/
  | platoCurrent
  | platoReader
  /-- The two writes of the supervisor after Plato and NetSurf. -/
  | resetCurrent
  | resetReader
deriving DecidableEq, Repr

/-- Where the watcher stands inside a chord that switches applications. -/
inductive Duty where
  | idle
  | writeCurrent (app : App) (command : String)
  | writeReader (app : App) (command : String)
  | kill (command : String)
deriving DecidableEq, Repr

/-- The two files, the supervisor, and the watcher's request under way. -/
structure System where
  currentApp : Option App := none
  activeReader : Option App := none
  stage : Stage := .bootCurrent
  duty : Duty := .idle
deriving DecidableEq, Repr

/-! ## The watcher's decision -/

/-- The request among the effects of a chord: the files to write and the command
that follows them. -/
def requestOf : List Effect → Option (App × String)
  | .setActiveApp app :: .system command :: _ => some (app, command)
  | _ :: rest => requestOf rest
  | [] => none

/-- What a page key asks for while Home is held. -/
def decision (code : Nat) (files : AppFiles) : Option (App × String) :=
  requestOf (HomeView.chordEffects ⟨⟨evKey, code, 1⟩, 0, files, ⟨true, true, true⟩⟩ false)

/-- The watcher's chord handler makes the request the decision names. -/
theorem requestOf_handleChord (arrival : Arrival) (state : State)
    (page : isPageKey arrival.event.code = true) :
    requestOf (gestural (handleChord arrival state).2) =
      decision arrival.event.code arrival.files := by
  rw [(handleChord_homeView arrival state page).2]
  unfold decision HomeView.chord HomeView.chordEffects
  rcases pageKey_cases page with code | code | code | code
  · simp only [code, if_true]
  · simp only [code]
    rfl
  · simp only [code]
    rfl
  · simp only [code]
    cases state.homeView.media <;> rfl

/-! ## Processes -/

/-- The process names an application runs under. -/
def processes : App → List String
  | .koreader => ["luajit"]
  | .plato => ["ld-2.19.so", "plato"]
  | .netsurf => ["netsurf-fb"]

/-- `killall -9` names a process of the application. -/
def kills (command : String) (app : App) : Bool :=
  (processes app).any fun name => decide (name.toList <:+: command.toList)

/-- The line after the one that ran the application. -/
def afterExit : App → Stage
  | .koreader => .reading
  | .plato => .platoCurrent
  | .netsurf => .resetCurrent

/-- The line after the launcher, when it never ran the application. -/
def afterLauncher : App → Stage
  | .koreader => .reading
  | .plato | .netsurf => .resetCurrent

/-! ## Steps -/

/-- Who moves next. -/
inductive Label where
  /-- A page key is pressed while Home is held. -/
  | chord (code : Nat)
  /-- The next step of the watcher's chord. -/
  | watcher
  /-- The next line of the supervisor or its launcher. -/
  | supervisor
  /-- The application ends; KOReader may ask to be restarted (code 85). -/
  | exit (restart : Bool)
  /-- The launcher gives up before it has started the application. -/
  | abort
deriving DecidableEq, Repr

namespace System

/-- The application the supervisor reads. -/
def active (system : System) : App :=
  (system.currentApp.or system.activeReader).getD .koreader

/-- One step of the supervisor. -/
def superviseStep (installation : Installation) (system : System) : System :=
  match system.stage with
  | .bootCurrent => { system with currentApp := some .koreader, stage := .bootReader }
  | .bootReader => { system with activeReader := some .koreader, stage := .reading }
  | .reading => { system with stage := .chosen (installation.branch system.active) }
  | .chosen app => { system with stage := .starting app }
  | .starting app => { system with stage := .alive app }
  | .alive _ => system
  | .platoCurrent => { system with currentApp := some .koreader, stage := .platoReader }
  | .platoReader => { system with activeReader := some .koreader, stage := .resetCurrent }
  | .resetCurrent => { system with currentApp := some .koreader, stage := .resetReader }
  | .resetReader => { system with activeReader := some .koreader, stage := .reading }

/-- One step of the watcher's request. -/
def watchStep (system : System) : System :=
  match system.duty with
  | .idle => system
  | .writeCurrent app command =>
      { system with currentApp := some app, duty := .writeReader app command }
  | .writeReader app command =>
      { system with activeReader := some app, duty := .kill command }
  | .kill command =>
      match system.stage with
      | .alive app =>
          if kills command app then { system with stage := afterExit app, duty := .idle }
          else { system with duty := .idle }
      | _ => { system with duty := .idle }

/-- A step that is not enabled changes nothing. -/
def step (installation : Installation) (system : System) : Label → System
  | .chord code =>
      match system.duty, decision code (.ofApps system.currentApp system.activeReader) with
      | .idle, some (app, command) => { system with duty := .writeCurrent app command }
      | _, _ => system
  | .watcher => system.watchStep
  | .supervisor => system.superviseStep installation
  | .exit restart =>
      match system.stage with
      | .alive app =>
          { system with
            stage := if restart && app = .koreader then .starting .koreader else afterExit app }
      | _ => system
  | .abort =>
      match system.stage with
      | .starting app => { system with stage := afterLauncher app }
      | _ => system

end System

/-- The system from its boot, in any order of steps. -/
def machine (installation : Installation) : Machine System Label where
  initial := {}
  step := System.step installation

end Nookobo.Supervisor
