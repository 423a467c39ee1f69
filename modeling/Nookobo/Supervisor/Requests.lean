import Nookobo.Supervisor.Model

/-!
# Switch requests and the launches that follow

A request is made when the watcher writes `/tmp/current_app`. It is honoured when
the next launch starts the application it names, unless another request comes
first. `switch_exact` says at which lines of the supervisor and its launcher a
request is honoured under every interleaving: those behind which no reset to
KOReader stands before the file is read again, and at which no other launch has
been decided on. A request for KOReader survives every reset.
-/

namespace Nookobo.Supervisor

open Nookobo.Semantics

namespace System

/-- The application a step launches. -/
def launch? (system : System) (label : Label) : Option App :=
  match system.stage, label with
  | .chosen app, .supervisor => some app
  | _, _ => none

/-- The step makes a request. -/
def requests (system : System) (label : Label) : Bool :=
  match system.duty, label with
  | .writeCurrent _ _, .watcher => true
  | _, _ => false

/-- On this schedule, the first launch before any further request starts `app`. -/
def Honoured (installation : Installation) (app : App) : System → List Label → Prop
  | _, [] => True
  | system, label :: rest =>
      match system.launch? label with
      | some launched => launched = app
      | none =>
          system.requests label = false →
            Honoured installation app (system.step installation label) rest

end System

/-- A reset of `/tmp/current_app` to KOReader stands between this line and the next
time the file is read. -/
def Stage.resets : Stage → Bool
  | .bootCurrent | .platoCurrent | .platoReader | .resetCurrent => true
  | .starting app | .alive app => app != .koreader
  | .bootReader | .reading | .chosen _ | .resetReader => false

/-- The supervisor has not decided on another application, and will not reset the
file before it reads it, unless the request is for KOReader. -/
def Stage.Timely (stage : Stage) (app : App) : Prop :=
  match stage with
  | .chosen launched => launched = app
  | stage => stage.resets = true → app = .koreader

instance Honoured.decidable (installation : Installation) (app : App) :
    ∀ system labels, Decidable (System.Honoured installation app system labels)
  | _, [] => inferInstanceAs (Decidable True)
  | system, label :: rest => by
      unfold System.Honoured
      have := Honoured.decidable installation app (system.step installation label) rest
      exact match system.launch? label with
        | some launched => inferInstanceAs (Decidable (launched = app))
        | none => inferInstanceAs (Decidable (_ → _))

instance (stage : Stage) (app : App) : Decidable (stage.Timely app) := by
  unfold Stage.Timely
  exact match stage with
    | .chosen launched => inferInstanceAs (Decidable (launched = app))
    | .bootCurrent | .bootReader | .reading | .starting _ | .alive _ | .platoCurrent
    | .platoReader | .resetCurrent | .resetReader => inferInstanceAs (Decidable (_ → _))

/-! ## A request in place stays in place -/

/-- The file names `app`, and so will the next launch. -/
structure System.Secured (system : System) (app : App) : Prop where
  current : system.currentApp = some app
  timely : system.stage.Timely app

/-- A request that is made while the supervisor reads comes in time. -/
theorem Stage.timely_reading (app : App) : Stage.reading.Timely app :=
  fun pending => absurd pending (by decide)

/-- Ending an application or its launcher adds no reset to those ahead. -/
theorem Stage.Timely.afterExit {running app : App} (timely : (Stage.alive running).Timely app) :
    (Supervisor.afterExit running).Timely app := by
  cases running with
  | koreader => exact timely_reading app
  | plato => exact fun _ => timely (by decide)
  | netsurf => exact fun _ => timely (by decide)

/-- A request in time for a starting application is in time after its launcher. -/
theorem Stage.Timely.afterLauncher {running app : App}
    (timely : (Stage.starting running).Timely app) :
    (Supervisor.afterLauncher running).Timely app := by
  cases running with
  | koreader => exact timely_reading app
  | plato => exact fun _ => timely (by decide)
  | netsurf => exact fun _ => timely (by decide)

namespace System

/-- A step of the supervisor keeps the request. -/
theorem Secured.superviseStep {system : System} {app : App} {installation : Installation}
    (secured : system.Secured app) (executable : installation.executable app = true)
    (noLaunch : system.launch? .supervisor = none) :
    (system.superviseStep installation).Secured app := by
  obtain ⟨current, timely⟩ := secured
  unfold System.superviseStep
  unfold Stage.Timely at timely
  cases stage : system.stage with
  | bootCurrent | platoCurrent | resetCurrent =>
      rw [stage] at timely
      have koreader := timely (by decide)
      subst koreader
      exact ⟨rfl, fun _ => rfl⟩
  | platoReader =>
      rw [stage] at timely
      exact ⟨current, fun _ => timely (by decide)⟩
  | bootReader | resetReader => exact ⟨current, Stage.timely_reading app⟩
  | reading =>
      refine ⟨current, ?_⟩
      simp [Stage.Timely, System.active, current, Installation.branch, executable]
  | chosen launched => simp [launch?, stage] at noLaunch
  | starting running =>
      rw [stage] at timely
      exact ⟨current, timely⟩
  | alive running =>
      dsimp only
      refine ⟨current, ?_⟩
      rw [stage] at timely ⊢
      exact timely

/-- A step of the watcher without a request keeps the one that was made. -/
theorem Secured.watchStep {system : System} {app : App} (secured : system.Secured app)
    (noRequest : system.requests .watcher = false) : system.watchStep.Secured app := by
  obtain ⟨current, timely⟩ := secured
  unfold System.watchStep
  cases duty : system.duty with
  | idle => exact ⟨current, timely⟩
  | writeCurrent _ _ => simp [requests, duty] at noRequest
  | writeReader _ _ => exact ⟨current, timely⟩
  | kill command =>
      dsimp only
      split
      · rename_i running stage
        rw [stage] at timely
        split
        · exact ⟨current, timely.afterExit⟩
        · refine ⟨current, ?_⟩
          simpa only [stage] using timely
      · exact ⟨current, timely⟩

/-- Until the next launch or request, every step keeps the request in place. -/
theorem Secured.step {system : System} {app : App} {installation : Installation}
    (secured : system.Secured app) (executable : installation.executable app = true)
    {label : Label} (noLaunch : system.launch? label = none)
    (noRequest : system.requests label = false) :
    (system.step installation label).Secured app := by
  cases label with
  | chord code =>
      simp only [System.step]
      split
      · exact ⟨secured.current, secured.timely⟩
      · exact secured
  | watcher => exact secured.watchStep noRequest
  | supervisor => exact secured.superviseStep executable noLaunch
  | exit restart =>
      obtain ⟨current, timely⟩ := secured
      simp only [System.step]
      split
      · rename_i running stage
        rw [stage] at timely
        refine ⟨current, ?_⟩
        dsimp only
        split
        · exact fun pending => absurd pending (by decide)
        · exact timely.afterExit
      · exact ⟨current, timely⟩
  | abort =>
      obtain ⟨current, timely⟩ := secured
      simp only [System.step]
      split
      · rename_i running stage
        rw [stage] at timely
        exact ⟨current, timely.afterLauncher⟩
      · exact ⟨current, timely⟩

/-- A request that is kept is honoured by every schedule. -/
theorem Secured.honoured {system : System} {app : App} {installation : Installation}
    (secured : system.Secured app) (executable : installation.executable app = true)
    (labels : List Label) : system.Honoured installation app labels := by
  induction labels generalizing system with
  | nil => trivial
  | cons label rest ih =>
      unfold Honoured
      cases launch : system.launch? label with
      | none => exact fun noRequest => ih (secured.step executable launch noRequest)
      | some launched =>
          have timely := secured.timely
          unfold launch? at launch
          split at launch
          · rename_i chosen stage
            rw [stage] at timely
            rw [← Option.some.inj launch]
            exact timely
          · exact absurd launch (by simp)

/-! ## A request out of time is lost -/

/-- The supervisor requests nothing. -/
@[simp] theorem requests_supervisor (system : System) : system.requests .supervisor = false := by
  unfold requests
  split
  · contradiction
  · rfl

/-- An application that exits requests nothing. -/
@[simp] theorem requests_exit (system : System) (restart : Bool) :
    system.requests (.exit restart) = false := by
  unfold requests
  split
  · contradiction
  · rfl

/-- An application that breaks off requests nothing. -/
@[simp] theorem requests_abort (system : System) : system.requests .abort = false := by
  unfold requests
  split
  · contradiction
  · rfl

end System

/-- A schedule that ends the running application, if any, and lets the supervisor
run on to its next launch. -/
def Stage.rush : Stage → List Label
  | .starting _ => [.abort, .supervisor, .supervisor, .supervisor, .supervisor]
  | .alive .plato =>
      [.exit false, .supervisor, .supervisor, .supervisor, .supervisor, .supervisor, .supervisor]
  | .alive _ => [.exit false, .supervisor, .supervisor, .supervisor, .supervisor]
  | .platoCurrent =>
      [.supervisor, .supervisor, .supervisor, .supervisor, .supervisor, .supervisor]
  | .platoReader => [.supervisor, .supervisor, .supervisor, .supervisor, .supervisor]
  | .chosen _ => [.supervisor]
  | .bootCurrent | .bootReader | .reading | .resetCurrent | .resetReader =>
      [.supervisor, .supervisor, .supervisor, .supervisor]

namespace System

/-- A request too late is dishonoured by a schedule that hurries on. -/
theorem not_honoured_of_not_timely {system : System} {app : App} (installation : Installation)
    (late : ¬ system.stage.Timely app) :
    ¬ system.Honoured installation app system.stage.rush := by
  have parts : (∃ launched, system.stage = .chosen launched ∧ launched ≠ app) ∨
      system.stage.resets = true ∧ App.koreader ≠ app := by
    unfold Stage.Timely at late
    cases stage : system.stage with
    | chosen launched =>
        rw [stage] at late
        exact .inl ⟨launched, rfl, late⟩
    | bootCurrent | bootReader | reading | starting _ | alive _ | platoCurrent | platoReader
    | resetCurrent | resetReader =>
        rw [stage, Classical.not_imp] at late
        exact .inr ⟨late.1, Ne.symm late.2⟩
  rcases parts with ⟨launched, stage, other⟩ | ⟨pending, other⟩
  · simpa [stage, Stage.rush, Honoured, launch?] using other
  · cases stage : system.stage with
    | bootCurrent | platoCurrent | platoReader | resetCurrent =>
        simp [Stage.rush, Honoured, launch?, step, superviseStep, stage, active,
          Installation.branch, Installation.executable, other]
    | bootReader | reading | chosen _ | resetReader =>
        rw [stage] at pending
        exact absurd pending (by simp [Stage.resets])
    | starting running | alive running =>
        cases running with
        | koreader =>
            rw [stage] at pending
            exact absurd pending (by decide)
        | plato | netsurf =>
            simp [Stage.rush, Honoured, launch?, step, superviseStep, stage, active,
              afterExit, afterLauncher, Installation.branch, Installation.executable, other]

end System

/-- In whatever state the watcher makes a request, under every interleaving of the
three programs: the next launch before any further request starts the application
asked for, exactly when the supervisor has not decided on another one and will not
reset the file before it reads it (or would reset it to the application asked
for). -/
theorem switch_exact (installation : Installation) (history : List Label) (app : App)
    (command : String) (executable : installation.executable app = true)
    (request : ((machine installation).run (machine installation).initial history).duty =
      .writeCurrent app command) :
    (∀ labels, System.Honoured installation app
        ((machine installation).run (machine installation).initial (history ++ [.watcher]))
        labels) ↔
      ((machine installation).run (machine installation).initial history).stage.Timely app := by
  rw [Machine.run_append]
  generalize (machine installation).run (machine installation).initial history = system
    at request ⊢
  have made : (machine installation).run system [.watcher] =
      { system with currentApp := some app, duty := .writeReader app command } := by
    simp [machine, System.step, System.watchStep, request]
  have current : ((machine installation).run system [.watcher]).currentApp = some app := by
    rw [made]
  have stage : ((machine installation).run system [.watcher]).stage = system.stage := by
    rw [made]
  rw [← stage]
  constructor
  · intro honoured
    by_contra late
    exact System.not_honoured_of_not_timely installation late (honoured _)
  · intro timely labels
    exact System.Secured.honoured ⟨current, timely⟩ executable labels

/-- From boot until KOReader runs. -/
def bootToKoreader : List Label :=
  [.supervisor, .supervisor, .supervisor, .supervisor, .supervisor]

/-- Home + Bottom Left in KOReader, up to the write of the request. -/
def platoFromKoreader : List Label := bootToKoreader ++ [.chord 192]

/-- Plato is asked for in KOReader, launched, and NetSurf asked for from it. -/
def netsurfFromPlato : List Label :=
  platoFromKoreader ++ [.watcher, .watcher, .watcher, .supervisor, .supervisor, .supervisor,
    .chord 193]

/-- A switch from KOReader to Plato is honoured. -/
theorem switch_exact_plato_from_koreader :
    ((machine ⟨true, true⟩).run (machine ⟨true, true⟩).initial platoFromKoreader).stage =
        .alive .koreader ∧
      ∀ labels, System.Honoured ⟨true, true⟩ .plato
        ((machine ⟨true, true⟩).run (machine ⟨true, true⟩).initial
          (platoFromKoreader ++ [.watcher])) labels :=
  ⟨by decide,
    (switch_exact ⟨true, true⟩ platoFromKoreader .plato
      "killall -9 luajit netsurf-fb 2>/dev/null || true" (by decide) (by decide)).mpr (by decide)⟩

/-- A switch from Plato to NetSurf is not: both files are written, Plato is killed,
`start_plato.sh` and the supervisor reset the files, and KOReader is launched. -/
theorem switch_netsurf_from_plato_lost :
    ((machine ⟨true, true⟩).run (machine ⟨true, true⟩).initial netsurfFromPlato).stage =
        .alive .plato ∧
      ((machine ⟨true, true⟩).run (machine ⟨true, true⟩).initial netsurfFromPlato).duty =
        .writeCurrent .netsurf "killall -9 luajit ld-2.19.so plato 2>/dev/null || true" ∧
      ¬ System.Honoured ⟨true, true⟩ .netsurf
        ((machine ⟨true, true⟩).run (machine ⟨true, true⟩).initial
          (netsurfFromPlato ++ [.watcher]))
        [.watcher, .watcher, .supervisor, .supervisor, .supervisor, .supervisor, .supervisor,
          .supervisor] := by
  decide

end Nookobo.Supervisor
