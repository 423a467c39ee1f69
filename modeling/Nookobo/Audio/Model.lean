import Mathlib.Logic.Function.Basic
import Nookobo.Text.CString

/-!
# The audio player: its files, processes and scripts

`audiocontrol.sh` is run once for each command and once more, in the background, as the
daemon that plays one track after the other. All of these talk through small files in
`/var/run` and through signals; nothing is locked. Each file access and each signal is a
step of its own here, so that the steps of several processes can interleave in any order.

`DaemonPoint` and `StartPoint` are the program points of `run_daemon` and
`start_playback`, with the shell variables that are still needed; `Ensure` those of
`ensure_playlist`, which both call. What a step cannot know by itself, a `Choice` of the
surroundings tells it.
-/

namespace Nookobo.Audio

open Nookobo.Text

/-! ## Files and processes -/

/-- What `STATUSFILE` may say. -/
inductive Status where
  | playing
  | paused
  | stopped
deriving DecidableEq, Repr

/-- The two programs that play a track. -/
inductive PlayerKind where
  | mpg123
  | aplay
deriving DecidableEq, Repr

/-- The files under `/var/run`, and the saved playlist. A missing playlist is as good as an
empty one to all that read it. -/
structure Files where
  pid : Option Nat := none
  playerPid : Option Nat := none
  status : Option Status := none
  track : Option (List UInt8) := none
  index : Option Nat := none
  shuffle : Option Bool := none
  playlist : List (List UInt8) := []
  savedPlaylist : List (List UInt8) := []
deriving DecidableEq, Repr

/-- What the surroundings contribute to a step: the process id given to a new process, a
random number, what `find` lists, and whether the file of the track is there. -/
structure Choice where
  pid : Nat := 0
  random : Nat := 0
  found : List (List UInt8) := []
  present : Bool := true
deriving DecidableEq, Repr

/-! ## `ensure_playlist` -/

/-- Where `ensure_playlist` stands. -/
inductive Ensure where
  | testPlaylist
  | testSaved
  | copySaved
  | find
  | savePlaylist
  | testIndex
  | writeIndex
  | testShuffle
  | writeShuffle
deriving DecidableEq, Repr

/-- One step of `ensure_playlist`; nothing follows the last one. -/
def Ensure.step (choice : Choice) (files : Files) : Ensure → Files × Option Ensure
  | .testPlaylist =>
      if files.playlist = [] then (files, some .testSaved) else (files, some .testIndex)
  | .testSaved =>
      if files.savedPlaylist = [] then (files, some .find) else (files, some .copySaved)
  | .copySaved => ({ files with playlist := files.savedPlaylist }, some .testIndex)
  | .find => ({ files with playlist := choice.found }, some .savePlaylist)
  | .savePlaylist => ({ files with savedPlaylist := files.playlist }, some .testIndex)
  | .testIndex =>
      if files.index.isSome then (files, some .testShuffle) else (files, some .writeIndex)
  | .writeIndex => ({ files with index := some 0 }, some .testShuffle)
  | .testShuffle => if files.shuffle.isSome then (files, none) else (files, some .writeShuffle)
  | .writeShuffle => ({ files with shuffle := some false }, none)

/-! ## `run_daemon` -/

/-- Where `run_daemon` stands. -/
inductive DaemonPoint where
  | writePid
  | markPlaying
  | ensuring (point : Ensure)
  | countTracks
  | markEmpty
  | removeTrack
  | readIndex (total : Nat)
  | resetIndex (total : Nat)
  | checkTracks (total idx : Nat)
  | findTrack (total idx : Nat)
  | skipTrack (total idx : Nat)
  | writeTrack (idx : Nat) (file : List UInt8)
  | markTrackPlaying (idx : Nat) (file : List UInt8)
  | startPlayer (idx : Nat) (file : List UInt8)
  | writePlayerPid (idx player : Nat)
  | wait (idx player : Nat)
  | removePlayerPid (idx : Nat)
  | readStatus (idx : Nat)
  | readShuffle (idx : Nat)
  | recountTracks (idx : Nat) (shuffle : Bool)
  | writeNext (idx : Nat) (shuffle : Bool) (total : Nat)
  | exitRemovePid
  | exitRemovePlayerPid
  | exitMarkStopped
deriving DecidableEq, Repr

/-- `case "$file" in *.wav)`. -/
def playerFor (file : List UInt8) : PlayerKind :=
  if (ascii ".wav").isSuffixOf file then .aplay else .mpg123

namespace DaemonPoint

/-- Where `ensure_playlist` returns to. -/
def afterEnsure (next : Option Ensure) : DaemonPoint :=
  match next with
  | some point => .ensuring point
  | none => .countTracks

/-- One step of the daemon `self`, `playing` telling whether the player it waits for still
runs: the files after it and, unless the daemon is at its end, the point it has come to. -/
def step (self : Nat) (choice : Choice) (playing : Bool) (files : Files) :
    DaemonPoint → Files × Option DaemonPoint
  | .writePid => ({ files with pid := some self }, some .markPlaying)
  | .markPlaying => ({ files with status := some .playing }, some (.ensuring .testPlaylist))
  | .ensuring point =>
      let result := point.step choice files
      (result.1, some (afterEnsure result.2))
  | .countTracks =>
      if files.playlist.length = 0 then (files, some .markEmpty)
      else (files, some (.readIndex files.playlist.length))
  | .markEmpty => ({ files with status := some .stopped }, some .removeTrack)
  | .removeTrack => ({ files with track := none }, some .exitRemovePid)
  | .readIndex total =>
      if files.index.getD 0 ≥ total then (files, some (.resetIndex total))
      else (files, some (.checkTracks total (files.index.getD 0)))
  | .resetIndex total => ({ files with index := some 0 }, some (.checkTracks total 0))
  | .checkTracks total idx =>
      if files.playlist.length = 0 then (files, some (.skipTrack total idx))
      else (files, some (.findTrack total idx))
  | .findTrack total idx =>
      if files.playlist.getD idx [] = [] ∨ choice.present = false then
        (files, some (.skipTrack total idx))
      else (files, some (.writeTrack idx (files.playlist.getD idx [])))
  | .skipTrack total idx =>
      ({ files with index := some ((idx + 1) % total) }, some (.ensuring .testPlaylist))
  | .writeTrack idx file => ({ files with track := some file }, some (.markTrackPlaying idx file))
  | .markTrackPlaying idx file =>
      ({ files with status := some .playing }, some (.startPlayer idx file))
  | .startPlayer idx _ => (files, some (.writePlayerPid idx choice.pid))
  | .writePlayerPid idx player => ({ files with playerPid := some player }, some (.wait idx player))
  | .wait idx player =>
      if playing then (files, some (.wait idx player)) else (files, some (.removePlayerPid idx))
  | .removePlayerPid idx => ({ files with playerPid := none }, some (.readStatus idx))
  | .readStatus idx =>
      if files.status.getD .stopped = .stopped then (files, some .exitRemovePid)
      else (files, some (.readShuffle idx))
  | .readShuffle idx => (files, some (.recountTracks idx (files.shuffle.getD false)))
  | .recountTracks idx shuffle => (files, some (.writeNext idx shuffle files.playlist.length))
  | .writeNext idx shuffle total =>
      if shuffle = true ∧ total > 1 then
        ({ files with index := some (choice.random % total) }, some (.ensuring .testPlaylist))
      -- the remainder by zero is an error that ends the shell
      else if total = 0 then (files, none)
      else ({ files with index := some ((idx + 1) % total) }, some (.ensuring .testPlaylist))
  | .exitRemovePid => ({ files with pid := none }, some .exitRemovePlayerPid)
  | .exitRemovePlayerPid => ({ files with playerPid := none }, some .exitMarkStopped)
  | .exitMarkStopped => ({ files with status := some .stopped }, none)

end DaemonPoint

/-! ## Processes -/

/-- A process: a daemon, a player and the daemon that started it, or anything else, which may
happen to run one of the two programs as well. -/
inductive Process where
  | daemon (point : DaemonPoint)
  | player (parent : Nat) (kind : PlayerKind) (stopped : Bool)
  | other (program : Option PlayerKind)
deriving DecidableEq, Repr

/-- The processes by their ids. -/
abbrev Processes := Nat → Option Process

/-- The program that the process runs, as `pkill -x` sees it. -/
def Process.program : Process → Option PlayerKind
  | .daemon _ => none
  | .player _ kind _ => some kind
  | .other program => program

/-- `kill -9`. -/
def kill (pid : Option Nat) (processes : Processes) : Processes :=
  match pid with
  | some pid => Function.update processes pid none
  | none => processes

/-- `pkill -9 -x`. -/
def pkill (kind : PlayerKind) (processes : Processes) : Processes := fun pid =>
  if (processes pid).bind Process.program = some kind then none else processes pid

/-- The process is a player of that daemon. -/
def isPlayerOf (daemon pid : Nat) (processes : Processes) : Bool :=
  match processes pid with
  | some (.player parent _ _) => parent == daemon
  | _ => false

/-- The player the daemon waits for still runs. -/
def DaemonPoint.waits (self : Nat) (processes : Processes) : DaemonPoint → Bool
  | .wait _ player => isPlayerOf self player processes
  | _ => false

/-- The processes after a step of the daemon, without the daemon itself. -/
def DaemonPoint.spawn (self : Nat) (choice : Choice) (processes : Processes) :
    DaemonPoint → Processes
  | .startPlayer _ file =>
      Function.update processes choice.pid (some (.player self (playerFor file) false))
  | _ => processes

/-- The step that starts a player. -/
def DaemonPoint.spawns : DaemonPoint → Bool
  | .startPlayer _ _ => true
  | _ => false

/-- The shared state of the machine. -/
structure World where
  files : Files
  processes : Processes

/-- The daemon `self` takes its next step, if there is such a daemon. -/
def World.daemonStep (self : Nat) (choice : Choice) (world : World) : World :=
  match world.processes self with
  | some (.daemon point) =>
      let result := point.step self choice (point.waits self world.processes) world.files
      { files := result.1
        processes :=
          Function.update (point.spawn self choice world.processes) self (result.2.map .daemon) }
  | _ => world

/-- Where the daemon with this id is, if there is one. -/
def daemonAt (processes : Processes) (pid : Nat) : Option DaemonPoint :=
  match processes pid with
  | some (.daemon point) => some point
  | _ => none

/-- A daemon is where its process is. -/
theorem daemonAt_eq_some {processes : Processes} {pid : Nat} {point : DaemonPoint} :
    daemonAt processes pid = some point ↔ processes pid = some (.daemon point) := by
  unfold daemonAt
  split
  · next here => rw [here, Option.some_inj, Option.some_inj, Process.daemon.injEq]
  · next other =>
      constructor
      · intro impossible
        cases impossible
      · intro here
        exact absurd here (other point)

/-- A daemon that moves is where it moves to. -/
theorem daemonAt_update_self (processes : Processes) (pid : Nat) (next : Option DaemonPoint) :
    daemonAt (Function.update processes pid (next.map .daemon)) pid = next := by
  unfold daemonAt
  rw [Function.update_self]
  cases next <;> rfl

/-- A daemon stays where it is when another process changes. -/
theorem daemonAt_update_of_ne {processes : Processes} {pid other : Nat} (different : other ≠ pid)
    (process : Option Process) :
    daemonAt (Function.update processes pid process) other = daemonAt processes other := by
  unfold daemonAt
  rw [Function.update_of_ne different]

/-- A process that is no daemon, in a place where there was none. -/
theorem daemonAt_update_of_none {processes : Processes} {pid : Nat} {process : Option Process}
    (before : daemonAt processes pid = none) (after : ∀ point, process ≠ some (.daemon point))
    (other : Nat) :
    daemonAt (Function.update processes pid process) other = daemonAt processes other := by
  by_cases same : other = pid
  · subst same
    rw [before]
    unfold daemonAt
    rw [Function.update_self]
    cases process with
    | none => rfl
    | some process =>
        cases process with
        | daemon point => exact absurd rfl (after point)
        | player | other => rfl
  · exact daemonAt_update_of_ne same process

/-! ### A step of a daemon -/

section DaemonStep

variable {world : World} {self : Nat} {point : DaemonPoint} {choice : Choice}

/-- A daemon that is gone does nothing. -/
theorem daemonStep_of_none (absent : daemonAt world.processes self = none) (choice : Choice) :
    world.daemonStep self choice = world := by
  unfold World.daemonStep
  split
  · next point here =>
      rw [daemonAt_eq_some.mpr here] at absent
      cases absent
  · rfl

/-- What a daemon's step does to the files. -/
theorem files_daemonStep (here : daemonAt world.processes self = some point) (choice : Choice) :
    (world.daemonStep self choice).files =
      (point.step self choice (point.waits self world.processes) world.files).1 := by
  unfold World.daemonStep
  rw [daemonAt_eq_some.mp here]

/-- What a daemon's step does to the processes. -/
theorem processes_daemonStep (here : daemonAt world.processes self = some point)
    (choice : Choice) :
    (world.daemonStep self choice).processes =
      Function.update (point.spawn self choice world.processes) self
        ((point.step self choice (point.waits self world.processes) world.files).2.map
          .daemon) := by
  unfold World.daemonStep
  rw [daemonAt_eq_some.mp here]

/-- A daemon moves on as its step tells. -/
theorem daemonAt_daemonStep_self (here : daemonAt world.processes self = some point)
    (choice : Choice) :
    daemonAt (world.daemonStep self choice).processes self =
      (point.step self choice (point.waits self world.processes) world.files).2 := by
  rw [processes_daemonStep here]
  exact daemonAt_update_self ..

/-- The other daemons stay where they are. -/
theorem daemonAt_daemonStep_other {other : Nat} (different : other ≠ self)
    (free : ∀ point ∈ daemonAt world.processes self, point.spawns = true →
      world.processes choice.pid = none) :
    daemonAt (world.daemonStep self choice).processes other = daemonAt world.processes other := by
  unfold World.daemonStep
  split
  · next point here =>
      rw [daemonAt_update_of_ne different]
      cases point with
      | startPlayer idx file =>
          have vacant : daemonAt world.processes choice.pid = none := by
            unfold daemonAt
            rw [free _ (daemonAt_eq_some.mpr here) rfl]
          exact daemonAt_update_of_none vacant (by rintro _ ⟨⟩) other
      | _ => rfl
  · rfl

end DaemonStep

/-! ## `start_playback` -/

/-- Where `start_playback` stands. -/
inductive StartPoint where
  | markStopped
  | testPlayerPid
  | readPlayerPid
  | killPlayer (pid : Option Nat)
  | removePlayerPid
  | testPid
  | readPid
  | killDaemon (pid : Option Nat)
  | removePid
  | pkillMpg123
  | pkillAplay
  | ensuring (point : Ensure)
  | markPlaying
  | spawn
deriving DecidableEq, Repr

namespace StartPoint

/-- One step of `start_playback`, `stop_playback` included. -/
def step (choice : Choice) (world : World) : StartPoint → World × Option StartPoint
  | .markStopped =>
      ({ world with files := { world.files with status := some .stopped } }, some .testPlayerPid)
  | .testPlayerPid =>
      (world, some (if world.files.playerPid.isSome then .readPlayerPid else .testPid))
  | .readPlayerPid => (world, some (.killPlayer world.files.playerPid))
  | .killPlayer pid =>
      ({ world with processes := kill pid world.processes }, some .removePlayerPid)
  | .removePlayerPid =>
      ({ world with files := { world.files with playerPid := none } }, some .testPid)
  | .testPid => (world, some (if world.files.pid.isSome then .readPid else .pkillMpg123))
  | .readPid => (world, some (.killDaemon world.files.pid))
  | .killDaemon pid => ({ world with processes := kill pid world.processes }, some .removePid)
  | .removePid =>
      ({ world with files := { world.files with pid := none } }, some .pkillMpg123)
  | .pkillMpg123 =>
      ({ world with processes := pkill .mpg123 world.processes }, some .pkillAplay)
  | .pkillAplay =>
      ({ world with processes := pkill .aplay world.processes }, some (.ensuring .testPlaylist))
  | .ensuring point =>
      let result := point.step choice world.files
      ({ world with files := result.1 }, some ((result.2.map .ensuring).getD .markPlaying))
  | .markPlaying =>
      ({ world with files := { world.files with status := some .playing } }, some .spawn)
  | .spawn =>
      ({ world with
          processes := Function.update world.processes choice.pid (some (.daemon .writePid)) },
        none)

end StartPoint

end Nookobo.Audio
