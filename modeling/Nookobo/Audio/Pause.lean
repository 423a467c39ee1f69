import Nookobo.Audio.Model
import Nookobo.Semantics.Run

/-!
# The audio player: pausing

`pause` decides by the files alone. If both process id files exist it takes the player to be
the process that one of them names and stops or continues it; if not, it starts playback.
The files outlive the processes: after a daemon that was killed or a reset of the device
they name processes that are gone, or other ones by now. `status` asks whether the daemon is
alive, `pause` does not.

`Pause` runs the command in any surroundings: daemons move on, processes die, and their ids
are given to others, between any two of its steps. `pause_signals_live_player` says that the
command does what it is for whenever the files are current when it decides by them, and the
surroundings leave the processes they name alone until it is done.
-/

namespace Nookobo.Audio

open Nookobo.Semantics

/-! ## The command -/

/-- Where `pause` stands. -/
inductive PausePoint where
  | testPid
  | testPlayerPid
  | readPlayerPid
  | readStatus (player : Option Nat)
  | signal (player : Option Nat) (current : Status)
  | mark (status : Status)
  | starting (point : StartPoint)
  | finished
deriving DecidableEq, Repr

/-- A signal on its way, with the world it is sent in. -/
inductive Sent where
  /-- `kill -STOP`, or with `resume` `kill -CONT`. -/
  | toggle (player : Option Nat) (resume : Bool) (world : World)
  | kill (pid : Option Nat) (world : World)
  | pkill (kind : PlayerKind) (world : World)

/-- The command in its surroundings, with the daemon it has started. The last two fields only
watch: the signals that were sent, and the daemon named in the files when the player was
signalled. -/
structure Pause where
  world : World
  point : PausePoint := .testPid
  new : Option Nat := none
  sent : List Sent := []
  daemon : Option Nat := none

/-- The effect of SIGSTOP and SIGCONT, where the difference shows. -/
def Process.setStopped (stopped : Bool) : Process → Process
  | .player parent kind _ => .player parent kind stopped
  | process => process

/-- The signal to the player, if there is a process with its number. -/
def toggle (player : Option Nat) (resume : Bool) (processes : Processes) : Processes :=
  match player with
  | some pid =>
      Function.update processes pid ((processes pid).map (Process.setStopped !resume))
  | none => processes

/-- The command has found both files and is on its way to the signal. -/
def PausePoint.toggles : PausePoint → Bool
  | .readPlayerPid | .readStatus _ | .signal _ _ => true
  | _ => false

/-- Signals of `stop_playback` are still to come. -/
def StartPoint.signals : StartPoint → Bool
  | .ensuring _ | .markPlaying | .spawn => false
  | _ => true

/-- The id that `stop_playback` has read. -/
def StartPoint.held : StartPoint → Option Nat
  | .killPlayer pid | .killDaemon pid => pid
  | _ => none

namespace Pause

/-- The signals that a step of `start_playback` sends. -/
def startSignals (world : World) : StartPoint → List Sent
  | .killPlayer pid | .killDaemon pid => [.kill pid world]
  | .pkillMpg123 => [.pkill .mpg123 world]
  | .pkillAplay => [.pkill .aplay world]
  | _ => []

/-- The next step of the command. -/
def commandStep (choice : Choice) (pause : Pause) : Pause :=
  let files := pause.world.files
  match pause.point with
  | .testPid =>
      { pause with
        point := if files.pid.isSome then .testPlayerPid else .starting .markStopped }
  | .testPlayerPid =>
      { pause with
        point := if files.playerPid.isSome then .readPlayerPid else .starting .markStopped }
  | .readPlayerPid => { pause with point := .readStatus files.playerPid }
  | .readStatus player =>
      { pause with point := .signal player (files.status.getD .playing) }
  | .signal player current =>
      let resume := current != .playing
      { pause with
        world := { pause.world with processes := toggle player resume pause.world.processes }
        sent := pause.sent ++ [.toggle player resume pause.world]
        daemon := files.pid
        point := .mark (if resume then .playing else .paused) }
  | .mark status =>
      { pause with
        world := { pause.world with files := { files with status := some status } }
        point := .finished }
  | .starting point =>
      let result := point.step choice pause.world
      { pause with
        world := result.1
        point := (result.2.map .starting).getD .finished
        sent := pause.sent ++ startSignals pause.world point
        new := if point = .spawn then some choice.pid else pause.new }
  | .finished => pause

/-- What happens next: a step of the command or of a daemon, the death of a process, or a
process of someone else. -/
inductive Label where
  | command (choice : Choice)
  | daemon (pid : Nat) (choice : Choice)
  | dies (pid : Nat)
  | born (pid : Nat) (program : Option PlayerKind)

/-- The run is over with the command. -/
def step (pause : Pause) (label : Label) : Pause :=
  if pause.point = .finished then pause
  else
    match label with
    | .command choice => pause.commandStep choice
    | .daemon pid choice => { pause with world := pause.world.daemonStep pid choice }
    | .dies pid =>
        { pause with
          world := { pause.world with
            processes := Function.update pause.world.processes pid none } }
    | .born pid program =>
        { pause with
          world := { pause.world with
            processes := Function.update pause.world.processes pid (some (.other program)) } }

/-- The command from any start, in any order of steps. -/
def machine (start : Pause) : Machine Pause Label where
  initial := start
  step := step

/-- New processes get ids that are free. -/
def Legal (pause : Pause) : Label → Prop
  | .command choice => pause.point = .starting .spawn → pause.world.processes choice.pid = none
  | .daemon pid choice =>
      ∀ point ∈ daemonAt pause.world.processes pid, point.spawns = true →
        pause.world.processes choice.pid = none
  | .dies _ => True
  | .born pid _ => pause.world.processes pid = none

instance (pause : Pause) (label : Label) : Decidable (pause.Legal label) := by
  cases label <;> unfold Legal <;> infer_instance

/-! ## What the command is for -/

/-- The process belongs to the audio player. -/
def isOwn : Process → Bool
  | .daemon _ | .player _ _ _ => true
  | .other _ => false

/-- The process is a player that the daemon started, stopped or not as the case may be. -/
def isPlayer (parent : Nat) (stopped : Bool) : Option Process → Bool
  | some (.player started _ held) => started == parent && held == stopped
  | _ => false

/-- The signal reaches whom it is meant for: the player of the daemon that the files name,
alive, as that daemon is, and to be stopped if it runs and to be continued if it is stopped;
or, when playback is started anew, processes of the audio player only. -/
def Proper : Sent → Prop
  | .toggle player resume world =>
      ∃ pid ∈ player, ∃ parent ∈ world.files.pid,
        (daemonAt world.processes parent).isSome = true ∧
          isPlayer parent resume (world.processes pid) = true
  | .kill pid world => ∀ target ∈ pid, ∀ process ∈ world.processes target, isOwn process = true
  | .pkill kind world =>
      ∀ target, ∀ process ∈ world.processes target, process.program = some kind →
        isOwn process = true

/-- The process is no player that has been stopped. -/
def unstopped (process : Option Process) : Bool :=
  match process with
  | some (.player _ _ stopped) => !stopped
  | _ => true

/-- The daemon is playing a track or on its way to the next one. -/
def carriesOn (processes : Processes) : DaemonPoint → Bool
  | .markEmpty | .removeTrack | .exitRemovePid | .exitRemovePlayerPid | .exitMarkStopped => false
  | .writePlayerPid _ player | .wait _ player => unstopped (processes player)
  | _ => true

/-- There is a live daemon with a player that runs or is being started. -/
def Sounding (processes : Processes) : Prop :=
  ∃ pid, ∃ point ∈ daemonAt processes pid, carriesOn processes point = true

/-- Nothing is signalled that should not be, and in the end the player has been toggled or
playback started, and if the status says PLAYING there is a daemon to play. -/
structure Behaves (pause : Pause) : Prop where
  proper : ∀ sent ∈ pause.sent, Proper sent
  acts : pause.point = .finished →
    (∃ player resume world, pause.sent = [.toggle player resume world]) ∨
      ∃ pid ∈ pause.new, (daemonAt pause.world.processes pid).isSome = true
  sounding : pause.point = .finished → pause.world.files.status = some .playing →
    Sounding pause.world.processes

/-- The step takes a daemon out of its loop. -/
def leavesLoop (files : Files) : DaemonPoint → Bool
  | .countTracks => files.playlist.length == 0
  | .readStatus _ => files.status.getD .stopped == .stopped
  | .writeNext _ shuffle total => !(shuffle && decide (total > 1)) && total == 0
  | _ => false

/-- The process id files are current: PLAYER_PIDFILE names the live player for which the live
daemon waits that PIDFILE names, stopped unless the status is PLAYING. -/
def Current (world : World) : Prop :=
  ∃ parent ∈ world.files.pid, ∃ pid ∈ world.files.playerPid,
    (∃ idx, daemonAt world.processes parent = some (.wait idx pid)) ∧
      isPlayer parent (world.files.status.getD .playing != .playing)
        (world.processes pid) = true

/-- The id is in one of the process id files, is the one that the command has read from there,
or a daemon is about to write it. -/
def Referred (world : World) (held : Option Nat) (pid : Nat) : Prop :=
  held = some pid ∨ world.files.pid = some pid ∨ world.files.playerPid = some pid ∨
    ∃ daemon idx, daemonAt world.processes daemon = some (.writePlayerPid idx pid)

/-- No id that the files name has gone to a process of someone else, and nobody else plays. -/
structure Clear (world : World) (held : Option Nat) : Prop where
  alone : ∀ pid kind, world.processes pid ≠ some (.other (some kind))
  own : ∀ pid, Referred world held pid → ∀ process ∈ world.processes pid, isOwn process = true

/-- When the command finds both files they are current, and when it misses one they name no
process of someone else. On its way to the signal the two processes live and no other daemon
moves; from the signal that continues a player to the mark its daemon neither dies nor leaves its
loop; and as long as `stop_playback` signals, nobody else gets an id in use or starts to play. -/
def Undisturbed (pause : Pause) : Label → Prop
  | .command _ =>
      match pause.point with
      | .testPid => pause.world.files.pid = none → Clear pause.world none
      | .testPlayerPid =>
          if pause.world.files.playerPid.isSome then Current pause.world
          else Clear pause.world none
      | _ => True
  | .daemon pid _ =>
      if pause.point.toggles then pause.world.files.pid = some pid
      else pause.point = .mark .playing → pause.daemon = some pid →
        ∀ point ∈ daemonAt pause.world.processes pid, leavesLoop pause.world.files point = false
  | .dies pid =>
      if pause.point.toggles then
        pause.world.files.pid ≠ some pid ∧ pause.world.files.playerPid ≠ some pid
      else pause.point = .mark .playing → pause.daemon ≠ some pid
  | .born pid program =>
      ∀ point, pause.point = .starting point → point.signals = true →
        program = none ∧ ¬ Referred pause.world point.held pid

/-! ## A daemon that carries on -/

/-- Nothing but the command stops a process. -/
theorem unstopped_daemonStep (self : Nat) (choice : Choice) {world : World} {pid : Nat}
    (runs : unstopped (world.processes pid) = true) :
    unstopped ((world.daemonStep self choice).processes pid) = true := by
  cases here : daemonAt world.processes self with
  | none =>
      rw [daemonStep_of_none here]
      exact runs
  | some point =>
      rw [processes_daemonStep here]
      by_cases same : pid = self
      · subst same
        rw [Function.update_self]
        cases (point.step pid choice (point.waits pid world.processes) world.files).2 <;> rfl
      · rw [Function.update_of_ne same]
        cases point with
        | startPlayer idx file =>
            by_cases fresh : pid = choice.pid
            · rw [fresh, DaemonPoint.spawn, Function.update_self]
              rfl
            · rw [DaemonPoint.spawn, Function.update_of_ne fresh]
              exact runs
        | _ => exact runs

/-- What a daemon waits for may change as long as it is not stopped. -/
theorem carriesOn_congr {before after : Processes}
    (runs : ∀ pid, unstopped (before pid) = true → unstopped (after pid) = true)
    {point : DaemonPoint} (carries : carriesOn before point = true) :
    carriesOn after point = true := by
  cases point with
  | writePlayerPid idx player | wait idx player => exact runs player carries
  | _ => exact carries

/-- The daemon carries on. -/
def Carries (processes : Processes) (daemon : Nat) : Prop :=
  ∃ point ∈ daemonAt processes daemon, carriesOn processes point = true

/-- A daemon that carries on sounds. -/
theorem Carries.sounding {processes : Processes} {daemon : Nat}
    (carries : Carries processes daemon) : Sounding processes := ⟨daemon, carries⟩

/-- The player that a daemon has just started runs. -/
theorem unstopped_started {world : World} {self idx : Nat} {file : List UInt8}
    (here : daemonAt world.processes self = some (.startPlayer idx file)) (choice : Choice) :
    unstopped ((world.daemonStep self choice).processes choice.pid) = true := by
  rw [processes_daemonStep here]
  by_cases same : choice.pid = self
  · rw [same, Function.update_self]
    rfl
  · rw [Function.update_of_ne same, DaemonPoint.spawn, Function.update_self]
    rfl

/-- A daemon that stays in its loop carries on after its step. -/
theorem carries_step {world : World} {self : Nat} {point : DaemonPoint}
    (here : daemonAt world.processes self = some point)
    (carries : carriesOn world.processes point = true)
    (stays : leavesLoop world.files point = false) (choice : Choice) :
    Carries (world.daemonStep self choice).processes self := by
  have steps := daemonAt_daemonStep_self here choice
  cases point with
  | ensuring point =>
      refine ⟨_, steps, ?_⟩
      cases (point.step choice world.files).2 <;> rfl
  | countTracks =>
      have listed : ¬ world.files.playlist.length = 0 := ne_of_beq_false stays
      simp only [DaemonPoint.step, if_neg listed] at steps
      exact ⟨_, steps, rfl⟩
  | readStatus idx =>
      have going : ¬ world.files.status.getD .stopped = .stopped := ne_of_beq_false stays
      simp only [DaemonPoint.step, if_neg going] at steps
      exact ⟨_, steps, rfl⟩
  | writeNext idx shuffle total =>
      simp only [DaemonPoint.step] at steps
      split_ifs at steps with random empty
      · exact ⟨_, steps, rfl⟩
      · subst empty
        simp [leavesLoop] at stays
      · exact ⟨_, steps, rfl⟩
  | startPlayer idx file => exact ⟨_, steps, unstopped_started here choice⟩
  | writePlayerPid idx player => exact ⟨_, steps, unstopped_daemonStep self choice carries⟩
  | wait idx player =>
      simp only [DaemonPoint.step] at steps
      split at steps
      · exact ⟨_, steps, unstopped_daemonStep self choice carries⟩
      · exact ⟨_, steps, rfl⟩
  | readIndex | checkTracks | findTrack =>
      simp only [DaemonPoint.step] at steps
      split at steps <;> exact ⟨_, steps, rfl⟩
  | markEmpty | removeTrack | exitRemovePid | exitRemovePlayerPid | exitMarkStopped =>
      cases carries
  | _ => exact ⟨_, steps, rfl⟩

/-- A daemon carries on while others come and go. -/
theorem Carries.congr {before after : Processes} {daemon : Nat} (carries : Carries before daemon)
    (same : daemonAt after daemon = daemonAt before daemon)
    (runs : ∀ pid, unstopped (before pid) = true → unstopped (after pid) = true) :
    Carries after daemon := by
  obtain ⟨point, here, goes⟩ := carries
  exact ⟨point, same.trans here, carriesOn_congr runs goes⟩

/-- A change that stops no process leaves running what ran. -/
theorem unstopped_update {processes : Processes} {process : Option Process}
    (runs : unstopped process = true) (changed : Nat) {pid : Nat}
    (before : unstopped (processes pid) = true) :
    unstopped (Function.update processes changed process pid) = true := by
  by_cases same : pid = changed
  · rw [same, Function.update_self]
    exact runs
  · rw [Function.update_of_ne same]
    exact before

/-! ## Files that are current -/

namespace Current

variable {world : World}

/-- The daemon that waits for its player leaves everything as it is. -/
theorem daemonStep_eq (current : Current world) {pid : Nat}
    (named : world.files.pid = some pid) (choice : Choice) :
    world.daemonStep pid choice = world := by
  obtain ⟨parent, isParent, player, isPlayer', ⟨idx, waits⟩, plays⟩ := current
  obtain rfl : pid = parent := Option.some_inj.mp (named.symm.trans isParent)
  have runs : DaemonPoint.waits pid world.processes (.wait idx player) = true := by
    rw [DaemonPoint.waits, isPlayerOf]
    cases here : world.processes player with
    | none =>
        rw [here] at plays
        exact absurd plays Bool.false_ne_true
    | some process =>
        rw [here] at plays
        cases process with
        | player started kind held => exact (Bool.and_eq_true_iff.mp plays).1
        | daemon _ | other _ => exact absurd plays Bool.false_ne_true
  have here := daemonAt_eq_some.mp waits
  unfold World.daemonStep
  rw [here]
  simp only [runs, DaemonPoint.step, DaemonPoint.spawn, if_true, Option.map_some, ← here,
    Function.update_eq_self]

/-- The processes that the files name are there. -/
theorem occupied (current : Current world) {pid : Nat}
    (named : world.files.pid = some pid ∨ world.files.playerPid = some pid) :
    world.processes pid ≠ none := by
  obtain ⟨parent, isParent, player, isPlayer', ⟨idx, waits⟩, plays⟩ := current
  rcases named with isPid | isPid
  · obtain rfl : pid = parent := Option.some_inj.mp (isPid.symm.trans isParent)
    rw [daemonAt_eq_some.mp waits]
    exact Option.some_ne_none _
  · obtain rfl : pid = player := Option.some_inj.mp (isPid.symm.trans isPlayer')
    intro absent
    rw [absent] at plays
    cases plays

/-- The files stay current while the processes they name are left alone. -/
theorem update (current : Current world) {pid : Nat}
    (other : world.files.pid ≠ some pid ∧ world.files.playerPid ≠ some pid)
    (process : Option Process) :
    Current { world with processes := Function.update world.processes pid process } := by
  obtain ⟨parent, isParent, player, isPlayer', ⟨idx, waits⟩, plays⟩ := current
  have notParent : parent ≠ pid := fun same => other.1 (same ▸ isParent)
  have notPlayer : player ≠ pid := fun same => other.2 (same ▸ isPlayer')
  refine ⟨parent, isParent, player, isPlayer', ⟨idx, ?_⟩, ?_⟩
  · exact (daemonAt_update_of_ne notParent process).trans waits
  · dsimp only
    rw [Function.update_of_ne notPlayer]
    exact plays

end Current

/-! ## What a daemon writes to the process id files -/

section Writes

variable (self : Nat) (choice : Choice) (playing : Bool) (files : Files)

/-- `ensure_playlist` leaves the process id files alone. -/
theorem pids_ensure (point : Ensure) :
    (point.step choice files).1.pid = files.pid ∧
      (point.step choice files).1.playerPid = files.playerPid := by
  cases point with
  | testPlaylist | testSaved | testIndex | testShuffle =>
      rw [Ensure.step]
      split <;> exact ⟨rfl, rfl⟩
  | _ => exact ⟨rfl, rfl⟩

/-- A daemon writes its own id to PIDFILE. -/
theorem pid_step (point : DaemonPoint) :
    (point.step self choice playing files).1.pid = files.pid ∨
      (point.step self choice playing files).1.pid = some self ∨
        (point.step self choice playing files).1.pid = none := by
  cases point with
  | writePid => exact .inr (.inl rfl)
  | exitRemovePid => exact .inr (.inr rfl)
  | ensuring point => exact .inl (pids_ensure choice files point).1
  | countTracks | readIndex | checkTracks | findTrack | wait | readStatus =>
      simp only [DaemonPoint.step]
      split <;> exact .inl rfl
  | writeNext =>
      simp only [DaemonPoint.step]
      split_ifs <;> exact .inl rfl
  | _ => exact .inl rfl

/-- A daemon writes the id of its player to PLAYER_PIDFILE. -/
theorem playerPid_step (point : DaemonPoint) :
    (point.step self choice playing files).1.playerPid = files.playerPid ∨
      (point.step self choice playing files).1.playerPid = none ∨
        ∃ idx player, point = .writePlayerPid idx player ∧
          (point.step self choice playing files).1.playerPid = some player := by
  cases point with
  | writePlayerPid idx player => exact .inr (.inr ⟨idx, player, rfl, rfl⟩)
  | removePlayerPid | exitRemovePlayerPid => exact .inr (.inl rfl)
  | ensuring point => exact .inl (pids_ensure choice files point).2
  | countTracks | readIndex | checkTracks | findTrack | wait | readStatus =>
      simp only [DaemonPoint.step]
      split <;> exact .inl rfl
  | writeNext =>
      simp only [DaemonPoint.step]
      split_ifs <;> exact .inl rfl
  | _ => exact .inl rfl

/-- The id that a daemon is about to write is that of the player it has just started. -/
theorem spawns_of_next {point : DaemonPoint} {idx player : Nat}
    (next : (point.step self choice playing files).2 = some (.writePlayerPid idx player)) :
    point.spawns = true ∧ player = choice.pid := by
  cases point with
  | startPlayer => cases next; exact ⟨rfl, rfl⟩
  | ensuring point =>
      simp only [DaemonPoint.step, DaemonPoint.afterEnsure] at next
      split at next <;> cases next
  | countTracks | readIndex | checkTracks | findTrack | wait | readStatus =>
      simp only [DaemonPoint.step] at next
      split at next <;> cases next
  | writeNext =>
      simp only [DaemonPoint.step] at next
      split_ifs at next <;> cases next
  | _ => cases next

end Writes

/-! ## Files that name nobody else -/

namespace Clear

variable {world : World} {held : Option Nat}

/-- Fewer processes and fewer ids in the files. -/
theorem fewer (clear : Clear world held) {after : World} {held' : Option Nat}
    (processes : ∀ pid process, after.processes pid = some process →
      world.processes pid = some process)
    (refers : ∀ pid, Referred after held' pid → Referred world held pid) :
    Clear after held' where
  alone := fun pid kind other => clear.alone pid kind (processes pid _ other)
  own := fun pid referred process here =>
    clear.own pid (refers pid referred) process (processes pid process here)

/-- A process dies. -/
theorem dies (clear : Clear world held) (pid : Nat) :
    Clear { world with processes := Function.update world.processes pid none } held := by
  have shrinks : ∀ other process, Function.update world.processes pid none other = some process →
      world.processes other = some process := by
    intro other process here
    by_cases same : other = pid
    · rw [same, Function.update_self] at here
      cases here
    · rwa [Function.update_of_ne same] at here
  refine clear.fewer shrinks fun other referred => ?_
  rcases referred with isHeld | isPid | isPlayer' | ⟨daemon, idx, point⟩
  · exact .inl isHeld
  · exact .inr (.inl isPid)
  · exact .inr (.inr (.inl isPlayer'))
  · exact .inr (.inr (.inr ⟨daemon, idx,
      daemonAt_eq_some.mpr (shrinks _ _ (daemonAt_eq_some.mp point))⟩))

/-- Someone else gets an id that is not in use. -/
theorem born (clear : Clear world held) {pid : Nat} (free : world.processes pid = none)
    (unused : ¬ Referred world held pid) :
    Clear { world with processes := Function.update world.processes pid (some (.other none)) }
      held := by
  have refers : ∀ other, Referred { world with
      processes := Function.update world.processes pid (some (.other none)) } held other →
        Referred world held other := by
    rintro other (isHeld | isPid | isPlayer' | ⟨daemon, idx, point⟩)
    · exact .inl isHeld
    · exact .inr (.inl isPid)
    · exact .inr (.inr (.inl isPlayer'))
    · have vacant : daemonAt world.processes pid = none := by
        unfold daemonAt
        rw [free]
      refine .inr (.inr (.inr ⟨daemon, idx, ?_⟩))
      rw [← point]
      exact (daemonAt_update_of_none vacant (by rintro _ ⟨⟩) daemon).symm
  refine ⟨fun other kind => ?_, fun other referred process here => ?_⟩
  · dsimp only
    by_cases same : other = pid
    · rw [same, Function.update_self]
      rintro ⟨⟩
    · rw [Function.update_of_ne same]
      exact clear.alone other kind
  · have used := refers other referred
    have different : other ≠ pid := fun same => unused (same ▸ used)
    dsimp only at here
    rw [Function.update_of_ne different] at here
    exact clear.own other used process here

/-- What runs after a step of a daemon is of the audio player or ran before. -/
theorem spawned {self : Nat} {point : DaemonPoint} {choice : Choice}
    (here : daemonAt world.processes self = some point) {pid : Nat} {process : Process}
    (there : (world.daemonStep self choice).processes pid = some process) :
    isOwn process = true ∨ pid ≠ self ∧ (point.spawns = true → pid ≠ choice.pid) ∧
      world.processes pid = some process := by
  rw [processes_daemonStep here] at there
  by_cases isSelf : pid = self
  · rw [isSelf, Function.update_self] at there
    obtain ⟨next, -, rfl⟩ := Option.map_eq_some_iff.mp there
    exact .inl rfl
  · rw [Function.update_of_ne isSelf] at there
    cases point with
    | startPlayer idx file =>
        by_cases isNew : pid = choice.pid
        · rw [isNew, DaemonPoint.spawn, Function.update_self] at there
          cases there
          exact .inl rfl
        · rw [DaemonPoint.spawn, Function.update_of_ne isNew] at there
          exact .inr ⟨isSelf, fun _ => isNew, there⟩
    | _ => exact .inr ⟨isSelf, (fun spawns => by cases spawns), there⟩

/-- The other daemons after a step of a daemon are where they were. -/
theorem daemonAt_before {self : Nat} {point : DaemonPoint} {choice : Choice}
    (here : daemonAt world.processes self = some point) {daemon : Nat} (other : daemon ≠ self)
    {later : DaemonPoint}
    (there : daemonAt (world.daemonStep self choice).processes daemon = some later) :
    daemonAt world.processes daemon = some later := by
  rw [processes_daemonStep here, daemonAt_update_of_ne other] at there
  cases point with
  | startPlayer idx file =>
      by_cases isNew : daemon = choice.pid
      · rw [isNew, DaemonPoint.spawn, daemonAt, Function.update_self] at there
        cases there
      · rwa [DaemonPoint.spawn, daemonAt_update_of_ne isNew] at there
  | _ => exact there

/-- A daemon brings forth processes of the audio player only, and writes their ids. -/
theorem daemonStep (clear : Clear world held) (self : Nat) (choice : Choice) :
    Clear (world.daemonStep self choice) held := by
  cases here : daemonAt world.processes self with
  | none =>
      rw [daemonStep_of_none here]
      exact clear
  | some point =>
      refine ⟨fun pid kind other => ?_, fun pid referred process there => ?_⟩
      · rcases spawned here other with isOurs | ⟨-, -, before⟩
        · cases isOurs
        · exact clear.alone pid kind before
      · rcases spawned here there with isOurs | ⟨notSelf, notNew, before⟩
        · exact isOurs
        · refine clear.own pid ?_ process before
          rcases referred with isHeld | isPid | isPlayer' | ⟨daemon, idx, later⟩
          · exact .inl isHeld
          · rw [files_daemonStep here] at isPid
            rcases pid_step self choice _ world.files point with same | isSelf | gone
            · exact .inr (.inl (same ▸ isPid))
            · exact absurd (Option.some_inj.mp (isSelf.symm.trans isPid)).symm notSelf
            · rw [gone] at isPid
              cases isPid
          · rw [files_daemonStep here] at isPlayer'
            rcases playerPid_step self choice _ world.files point with
              same | gone | ⟨idx, player, isPoint, isPlayer⟩
            · exact .inr (.inr (.inl (same ▸ isPlayer')))
            · rw [gone] at isPlayer'
              cases isPlayer'
            · obtain rfl : player = pid := Option.some_inj.mp (isPlayer.symm.trans isPlayer')
              exact .inr (.inr (.inr ⟨self, idx, isPoint ▸ here⟩))
          · by_cases isSelf : daemon = self
            · rw [isSelf, daemonAt_daemonStep_self here] at later
              obtain ⟨spawns, isNew⟩ := spawns_of_next self choice _ world.files later
              exact absurd isNew (notNew spawns)
            · exact .inr (.inr (.inr ⟨daemon, idx, daemonAt_before here isSelf later⟩))

end Clear

/-! ## Where the command stands -/

/-- What is known of the command where it stands. -/
def Stands (pause : Pause) : Prop :=
  match pause.point with
  | .readPlayerPid => pause.sent = [] ∧ Current pause.world
  | .readStatus player =>
      pause.sent = [] ∧ Current pause.world ∧ player = pause.world.files.playerPid
  | .signal player current =>
      pause.sent = [] ∧ Current pause.world ∧ player = pause.world.files.playerPid ∧
        current = pause.world.files.status.getD .playing
  | .mark status =>
      (∃ player resume world, pause.sent = [.toggle player resume world]) ∧
        (status = .playing → ∃ daemon ∈ pause.daemon, Carries pause.world.processes daemon)
  | .starting point => point.signals = true → Clear pause.world point.held
  | .finished => pause.Behaves
  | _ => pause.sent = []

/-- The invariant of the command. -/
structure Sound (pause : Pause) : Prop where
  proper : ∀ sent ∈ pause.sent, Proper sent
  stands : pause.Stands

/-- Where the command stands says that it behaves. -/
theorem Sound.behaves {pause : Pause} (sound : pause.Sound) : pause.Behaves := by
  by_cases finished : pause.point = .finished
  · have stands := sound.stands
    simp only [Stands, finished] at stands
    exact stands
  · exact ⟨sound.proper, fun done => absurd done finished, fun done => absurd done finished⟩

/-- The surroundings leave the command where it stands if they keep the files current, let the
daemon carry on and give no id in use to someone else. -/
theorem Sound.move {pause : Pause} (sound : pause.Sound) (unfinished : pause.point ≠ .finished)
    {world : World}
    (keep : pause.point.toggles = true → Current pause.world →
      world.files = pause.world.files ∧ Current world)
    (carry : pause.point = .mark .playing → ∀ daemon ∈ pause.daemon,
      Carries pause.world.processes daemon → Carries world.processes daemon)
    (clear : ∀ point, pause.point = .starting point → point.signals = true →
      Clear pause.world point.held → Clear world point.held) :
    { pause with world := world }.Sound := by
  refine ⟨sound.proper, ?_⟩
  have stands := sound.stands
  cases place : pause.point with
  | finished => exact absurd place unfinished
  | mark status =>
      simp only [Stands, place] at stands ⊢
      refine ⟨stands.1, ?_⟩
      rintro rfl
      obtain ⟨daemon, signalled, carries⟩ := stands.2 rfl
      exact ⟨daemon, signalled, carry place daemon signalled carries⟩
  | starting point =>
      simp only [Stands, place] at stands ⊢
      exact fun signals => clear point place signals (stands signals)
  | readPlayerPid =>
      simp only [Stands, place] at stands ⊢
      exact ⟨stands.1, (keep (by rw [place]; rfl) stands.2).2⟩
  | readStatus player =>
      simp only [Stands, place] at stands ⊢
      obtain ⟨silent, current, isPlayer'⟩ := stands
      obtain ⟨files, current'⟩ := keep (by rw [place]; rfl) current
      exact ⟨silent, current', files ▸ isPlayer'⟩
  | signal player status =>
      simp only [Stands, place] at stands ⊢
      obtain ⟨silent, current, isPlayer', isStatus⟩ := stands
      obtain ⟨files, current'⟩ := keep (by rw [place]; rfl) current
      exact ⟨silent, current', files ▸ isPlayer', files ▸ isStatus⟩
  | testPid | testPlayerPid =>
      simp only [Stands, place] at stands ⊢
      exact stands

/-- Signals in two lists are proper when those of each are. -/
theorem proper_append {first second : List Sent} (before : ∀ sent ∈ first, Proper sent)
    (after : ∀ sent ∈ second, Proper sent) : ∀ sent ∈ first ++ second, Proper sent := by
  intro sent member
  rcases List.mem_append.mp member with early | late
  · exact before sent early
  · exact after sent late

/-- The signals of `start_playback` are proper if no id in use has gone to someone else and
nobody else plays. -/
theorem proper_startSignals {world : World} {point : StartPoint}
    (clear : point.signals = true → Clear world point.held) :
    ∀ sent ∈ startSignals world point, Proper sent := by
  cases point with
  | killPlayer pid | killDaemon pid =>
      intro sent member
      rw [startSignals, List.mem_singleton] at member
      rw [member]
      exact fun target held => (clear rfl).own target (.inl held)
  | pkillMpg123 | pkillAplay =>
      intro sent member
      rw [startSignals, List.mem_singleton] at member
      rw [member]
      intro target process there plays
      cases process with
      | daemon point => rfl
      | player parent kind stopped => rfl
      | other program =>
          obtain rfl : program = some _ := plays
          exact absurd there ((clear rfl).alone target _)
  | _ => rintro sent ⟨⟩

/-- `kill -9` and `pkill -9` leave fewer processes. -/
theorem processes_kill {pid : Option Nat} {processes : Processes} {other : Nat}
    {process : Process} (there : kill pid processes other = some process) :
    processes other = some process := by
  cases pid with
  | none => exact there
  | some pid =>
      by_cases same : other = pid
      · rw [kill, same, Function.update_self] at there
        cases there
      · rwa [kill, Function.update_of_ne same] at there

/-- `pkill` brings no process about. -/
theorem processes_pkill {kind : PlayerKind} {processes : Processes} {other : Nat}
    {process : Process} (there : pkill kind processes other = some process) :
    processes other = some process := by
  rw [pkill] at there
  split at there
  · cases there
  · exact there

/-- Where a signal is still to come after a step of `start_playback`, no id in use has gone to
someone else. -/
theorem Clear.start {world : World} {point next : StartPoint} {choice : Choice}
    (clear : point.signals = true → Clear world point.held)
    (steps : (point.step choice world).2 = some next) (signals : next.signals = true) :
    Clear (point.step choice world).1 next.held := by
  cases point with
  | markStopped =>
      cases steps
      exact (clear rfl).fewer (fun _ _ there => there) fun _ referred => referred
  | testPlayerPid | testPid =>
      simp only [StartPoint.step] at steps ⊢
      split at steps <;> cases steps <;> exact clear rfl
  | readPlayerPid =>
      cases steps
      refine (clear rfl).fewer (fun _ _ there => there) fun pid referred => ?_
      rcases referred with held | others
      · exact .inr (.inr (.inl held))
      · exact .inr others
  | readPid =>
      cases steps
      refine (clear rfl).fewer (fun _ _ there => there) fun pid referred => ?_
      rcases referred with held | others
      · exact .inr (.inl held)
      · exact .inr others
  | killPlayer pid | killDaemon pid =>
      cases steps
      refine (clear rfl).fewer (fun _ _ => processes_kill) fun other referred => ?_
      rcases referred with ⟨⟨⟩⟩ | isPid | isPlayer' | ⟨daemon, idx, there⟩
      · exact .inr (.inl isPid)
      · exact .inr (.inr (.inl isPlayer'))
      · exact .inr (.inr (.inr ⟨daemon, idx,
          daemonAt_eq_some.mpr (processes_kill (daemonAt_eq_some.mp there))⟩))
  | removePlayerPid | removePid =>
      cases steps
      refine (clear rfl).fewer (fun _ _ there => there) fun other referred => ?_
      rcases referred with ⟨⟨⟩⟩ | isPid | isPlayer' | daemon
      · first | cases isPid | exact .inr (.inl isPid)
      · first | cases isPlayer' | exact .inr (.inr (.inl isPlayer'))
      · exact .inr (.inr (.inr daemon))
  | pkillMpg123 =>
      cases steps
      refine (clear rfl).fewer (fun _ _ => processes_pkill) fun other referred => ?_
      rcases referred with ⟨⟨⟩⟩ | isPid | isPlayer' | ⟨daemon, idx, there⟩
      · exact .inr (.inl isPid)
      · exact .inr (.inr (.inl isPlayer'))
      · exact .inr (.inr (.inr ⟨daemon, idx,
          daemonAt_eq_some.mpr (processes_pkill (daemonAt_eq_some.mp there))⟩))
  | pkillAplay => cases steps; cases signals
  | ensuring point =>
      simp only [StartPoint.step] at steps
      obtain rfl := Option.some_inj.mp steps
      cases next' : (point.step choice world.files).2 <;> rw [next'] at signals <;> cases signals
  | markPlaying => cases steps; cases signals
  | spawn => cases steps

/-- Continuing the player for which the daemon waits lets it carry on. -/
theorem carries_toggle {processes : Processes} {parent pid idx : Nat}
    (waits : daemonAt processes parent = some (.wait idx pid))
    (stopped : isPlayer parent true (processes pid) = true) :
    Carries (toggle (some pid) true processes) parent := by
  have apart : parent ≠ pid := by
    rintro rfl
    rw [daemonAt_eq_some.mp waits] at stopped
    cases stopped
  refine ⟨.wait idx pid, (daemonAt_update_of_ne apart _).trans waits, ?_⟩
  simp only [carriesOn, toggle, Function.update_self]
  cases processes pid with
  | none => rfl
  | some process => cases process <;> rfl

/-- The last step of `start_playback`. -/
theorem eq_spawn_of_last {world : World} {point : StartPoint} {choice : Choice}
    (last : (point.step choice world).2 = none) : point = .spawn := by
  cases point with
  | spawn => rfl
  | testPlayerPid | testPid =>
      simp only [StartPoint.step] at last
      cases last
  | _ => cases last

/-- The first daemon of a playback that has just been started. -/
theorem carries_spawn (processes : Processes) (pid : Nat) :
    Carries (Function.update processes pid (some (.daemon .writePid))) pid :=
  ⟨.writePid, daemonAt_update_self processes pid (some .writePid), rfl⟩

/-- A step of `start_playback`. -/
theorem Sound.starting {pause : Pause} (sound : pause.Sound) {point : StartPoint}
    (place : pause.point = .starting point) (choice : Choice) :
    (pause.commandStep choice).Sound := by
  have clear := sound.stands
  simp only [Stands, place] at clear
  have proper := proper_append sound.proper (proper_startSignals clear)
  simp only [commandStep, place]
  refine ⟨proper, ?_⟩
  by_cases last : point = .spawn
  · subst last
    have carries := carries_spawn pause.world.processes choice.pid
    refine ⟨proper, fun _ => .inr ⟨choice.pid, rfl, ?_⟩, fun _ _ => carries.sounding⟩
    exact congrArg Option.isSome (daemonAt_update_self _ _ (some .writePid))
  · cases steps : (point.step choice pause.world).2 with
    | none => exact absurd (eq_spawn_of_last steps) last
    | some next => exact fun signals => Clear.start clear steps signals

/-- A step of the command. -/
theorem Sound.command {pause : Pause} (sound : pause.Sound) {choice : Choice}
    (undisturbed : pause.Undisturbed (.command choice)) : (pause.commandStep choice).Sound := by
  have stands := sound.stands
  cases place : pause.point with
  | starting point => exact sound.starting place choice
  | testPid =>
      simp only [Stands, place] at stands
      simp only [Undisturbed, place] at undisturbed
      simp only [commandStep, place]
      refine ⟨sound.proper, ?_⟩
      cases named : pause.world.files.pid with
      | none => exact fun _ => undisturbed named
      | some pid => exact stands
  | testPlayerPid =>
      simp only [Stands, place] at stands
      simp only [Undisturbed, place] at undisturbed
      simp only [commandStep, place]
      refine ⟨sound.proper, ?_⟩
      cases named : pause.world.files.playerPid with
      | none =>
          rw [named] at undisturbed
          exact fun _ => undisturbed
      | some pid =>
          rw [named] at undisturbed
          exact ⟨stands, undisturbed⟩
  | readPlayerPid =>
      simp only [Stands, place] at stands
      simp only [commandStep, place]
      exact ⟨sound.proper, stands.1, stands.2, rfl⟩
  | readStatus player =>
      simp only [Stands, place] at stands
      simp only [commandStep, place]
      exact ⟨sound.proper, stands.1, stands.2.1, stands.2.2, rfl⟩
  | signal player current =>
      simp only [Stands, place] at stands
      obtain ⟨silent, ⟨parent, isParent, pid, isPid, ⟨idx, waits⟩, target⟩, rfl, rfl⟩ := stands
      have reaches : Proper (.toggle pause.world.files.playerPid
          (pause.world.files.status.getD .playing != .playing) pause.world) :=
        ⟨pid, isPid, parent, isParent, by rw [waits]; rfl, target⟩
      simp only [commandStep, place, silent]
      refine ⟨proper_append (fun _ none => by cases none) ?_, ⟨⟨_, _, _, rfl⟩, ?_⟩⟩
      · intro sent member
        rw [List.mem_singleton.mp member]
        exact reaches
      · intro playing
        have resumes : (pause.world.files.status.getD .playing != .playing) = true := by
          by_contra paused
          rw [if_neg paused] at playing
          cases playing
        rw [resumes] at target ⊢
        rw [Option.mem_def] at isPid
        rw [isPid]
        exact ⟨parent, isParent, carries_toggle waits target⟩
  | mark status =>
      simp only [Stands, place] at stands
      simp only [commandStep, place]
      refine ⟨sound.proper, sound.proper, fun _ => .inl stands.1, ?_⟩
      intro _ playing
      obtain ⟨daemon, -, carries⟩ := stands.2 (Option.some_inj.mp playing)
      exact carries.sounding
  | finished =>
      simp only [commandStep, place]
      exact sound

/-- When only the mark is left, the signal has been sent. -/
theorem not_toggles_of_mark {pause : Pause} {status : Status}
    (place : pause.point = .mark status) : pause.point.toggles = false := by
  rw [place]
  rfl

/-- A step of the command or of its surroundings. -/
theorem sound_step {pause : Pause} {label : Label} (sound : pause.Sound)
    (allowed : pause.Legal label ∧ pause.Undisturbed label) : (pause.step label).Sound := by
  obtain ⟨legal, undisturbed⟩ := allowed
  unfold step
  split
  · exact sound
  · next unfinished =>
      cases label with
      | command choice => exact sound.command undisturbed
      | daemon pid choice =>
          rw [Undisturbed] at undisturbed
          refine sound.move unfinished (fun toggles current => ?_) ?_
            fun _ _ _ clear => clear.daemonStep pid choice
          · rw [if_pos toggles] at undisturbed
            rw [current.daemonStep_eq undisturbed]
            exact ⟨rfl, current⟩
          · rintro place daemon signalled ⟨point, here, goes⟩
            rw [not_toggles_of_mark place, if_neg Bool.false_ne_true] at undisturbed
            by_cases same : daemon = pid
            · subst same
              exact carries_step here goes (undisturbed place signalled point here) choice
            · have carries : Carries pause.world.processes daemon := ⟨point, here, goes⟩
              exact carries.congr (daemonAt_daemonStep_other same legal)
                (fun _ => unstopped_daemonStep pid choice)
      | dies pid =>
          rw [Undisturbed] at undisturbed
          refine sound.move unfinished (fun toggles current => ?_) ?_
            fun _ _ _ clear => clear.dies pid
          · rw [if_pos toggles] at undisturbed
            exact ⟨rfl, current.update undisturbed none⟩
          · intro place daemon signalled carries
            rw [not_toggles_of_mark place, if_neg Bool.false_ne_true] at undisturbed
            have different : daemon ≠ pid := by
              rintro rfl
              exact undisturbed place signalled
            exact carries.congr (daemonAt_update_of_ne different none)
              (fun _ => unstopped_update rfl pid)
      | born pid program =>
          have free : pause.world.processes pid = none := legal
          refine sound.move unfinished (fun _ current => ?_) ?_ fun point place signals clear => ?_
          · refine ⟨rfl, current.update ⟨fun named => ?_, fun named => ?_⟩ _⟩
            · exact current.occupied (.inl named) free
            · exact current.occupied (.inr named) free
          · intro place daemon signalled carries
            have vacant : daemonAt pause.world.processes pid = none := by
              unfold daemonAt
              rw [free]
            exact carries.congr (daemonAt_update_of_none vacant (by rintro _ ⟨⟩) daemon)
              (fun _ => unstopped_update rfl pid)
          · obtain ⟨rfl, unused⟩ := undisturbed point place signals
            exact clear.born free unused

/-- From any state of the files and the processes, and whatever happens meanwhile: if the files
are current when the command decides by them, or name nobody else when it starts playback, and
the processes they name are left alone, then the command toggles the player or starts playback,
signals nobody else, and a status of PLAYING means that there is a daemon to play. -/
theorem pause_signals_live_player (world : World) (labels : List Label)
    (legal : (machine { world := world }).StepsMeet Legal { world := world } labels)
    (undisturbed :
      (machine { world := world }).StepsMeet Undisturbed { world := world } labels) :
    (machine { world := world }).Always Behaves { world := world } labels := by
  have start : Sound { world := world } := ⟨fun _ none => (by cases none), rfl⟩
  refine Machine.always_of_allowed Sound (fun _ => Sound.behaves) ?_ start
    (legal.and undisturbed)
  intro pause label sound allowed
  exact sound_step sound allowed

/-- A daemon that plays its track. -/
def playing : World where
  files :=
    { pid := some 100, playerPid := some 200, status := some .playing, index := some 0
      shuffle := some false, playlist := [[97]] }
  processes := fun pid =>
    if pid = 100 then some (.daemon (.wait 0 200))
    else if pid = 200 then some (.player 100 .mpg123 false)
    else none

/-- Paused once, with daemon and player as the files have them. -/
theorem pause_signals_live_player_paused :
    (machine { world := playing }).Always Behaves { world := playing }
      [.command {}, .command {}, .command {}, .command {}, .command {}, .command {}] := by
  apply pause_signals_live_player
  · decide +kernel
  · refine ⟨(fun missing => by cases missing), ?_, trivial, trivial, trivial, trivial, trivial⟩
    exact ⟨100, rfl, 200, rfl, ⟨0, rfl⟩, rfl⟩

/-- The daemon and its player are killed, and the id of the player goes to another process:
the command stops that one. -/
theorem pause_stops_stranger :
    (machine { world := playing }).StepsMeet Legal { world := playing }
      [.dies 100, .dies 200, .born 200 none, .command {}, .command {}, .command {}, .command {},
        .command {}, .command {}] ∧
    ¬ (machine { world := playing }).Always Behaves { world := playing }
      [.dies 100, .dies 200, .born 200 none, .command {}, .command {}, .command {}, .command {},
        .command {}, .command {}] := by
  refine ⟨by decide +kernel, ?_⟩
  intro always
  have last := always.run
  obtain ⟨pid, named, parent, -, -, player⟩ := last.proper _ List.mem_cons_self
  obtain rfl : 200 = pid := Option.some_inj.mp named
  cases player

end Pause

end Nookobo.Audio
