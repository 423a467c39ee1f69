import Mathlib.Data.Fintype.Defs
import Mathlib.Data.List.GetD
import Nookobo.Audio.Model
import Nookobo.Semantics.Run

/-!
# The audio player: replacing the daemon

`play`, `next` and `prev` write the index of the track they want and start playback anew:
the status becomes STOPPED, the player and then the daemon are killed, the status becomes
PLAYING and a new daemon is started.

The player dies before its daemon. The daemon wakes up, reads STOPPED and goes through its
own exit, and whether it is killed depends on which of the two is faster: once the daemon
has removed its process id file, the command no longer knows whom to kill. A daemon that
lives on then marks the playback of its successor as stopped. A daemon whose track ends
before it is killed also overwrites the index.

`Skip` runs one such command beside the daemon it replaces and the one it starts.
`skip_wins` says that the command gets what it wants whenever the old daemon is not late in
either of these two ways and the new one finds the track.
-/

namespace Nookobo.Audio

open Nookobo.Semantics

/-! ## The command -/

/-- The argument of `play`: a number, a file that exists, or something else or nothing. -/
inductive PlayArgument where
  | index (number : Nat)
  | file (path : List UInt8)
  | neither
deriving DecidableEq, Repr

/-- The commands that choose a track. -/
inductive Request where
  | play (argument : PlayArgument)
  | next
  | prev
deriving DecidableEq, Repr

/-- Where a command stands. -/
inductive SkipPoint where
  | ensuring (point : Ensure)
  | countTracks
  | readIndex (total : Nat)
  | readShuffle (total idx : Nat)
  | writePlaylist (file : List UInt8)
  | writeIndex (value : Nat)
  | starting (point : StartPoint)
  /-- There is nothing to play, and nothing is done. -/
  | declined
  | finished
deriving DecidableEq, Repr

/-- Where a command begins. -/
def Request.entry : Request → SkipPoint
  | .play (.index number) => .writeIndex number
  | .play (.file path) => .writePlaylist path
  | .play .neither => .starting .markStopped
  | .next | .prev => .ensuring .testPlaylist

/-- A command beside two daemons. `new` is the daemon it has started. The last two fields
only watch: the index the command has chosen, which for a `play` without one is what it
finds, and whether the first track of the new daemon has ended. -/
structure Skip where
  world : World
  point : SkipPoint
  new : Option Nat := none
  chosen : Option Nat := none
  ended : Bool := false

namespace Skip

/-- The next step of the command. -/
def commandStep (request : Request) (choice : Choice) (skip : Skip) : Skip :=
  let files := skip.world.files
  match skip.point with
  | .ensuring point =>
      let result := point.step choice files
      { skip with
        world := { skip.world with files := result.1 }
        point := (result.2.map .ensuring).getD .countTracks }
  | .countTracks =>
      if files.playlist.length = 0 then { skip with point := .declined }
      else { skip with point := .readIndex files.playlist.length }
  | .readIndex total =>
      let idx := files.index.getD 0
      match request with
      | .prev => { skip with point := .writeIndex ((idx + total - 1) % total) }
      | _ => { skip with point := .readShuffle total idx }
  | .readShuffle total idx =>
      if files.shuffle.getD false = true ∧ total > 1 then
        { skip with point := .writeIndex (choice.random % total) }
      else { skip with point := .writeIndex ((idx + 1) % total) }
  | .writePlaylist file =>
      { skip with
        world := { skip.world with files := { files with playlist := [file] } }
        point := .writeIndex 0 }
  | .writeIndex value =>
      { skip with
        world := { skip.world with files := { files with index := some value } }
        point := .starting .markStopped
        chosen := some value }
  | .starting point =>
      let result := point.step choice skip.world
      { skip with
        world := result.1
        point := (result.2.map .starting).getD .finished
        new := if point = .spawn then some choice.pid else skip.new
        chosen :=
          if point = .markStopped then skip.chosen.or (some (files.index.getD 0)) else skip.chosen }
  | .declined | .finished => skip

/-- Who moves next. -/
inductive Label where
  | command (choice : Choice)
  | old (choice : Choice)
  | new (choice : Choice)
  | playerEnds (pid : Nat)

/-- The process has just seen the end of a track. -/
def sawEnd (processes : Processes) (pid : Nat) : Bool :=
  match daemonAt processes pid with
  | some (.removePlayerPid _) => true
  | _ => false

/-- One step: of the command, of a daemon, or the end of a player. -/
def step (request : Request) (old : Nat) (skip : Skip) : Label → Skip
  | .command choice => skip.commandStep request choice
  | .old choice => { skip with world := skip.world.daemonStep old choice }
  | .new choice =>
      match skip.new with
      | none => skip
      | some new =>
          let world := skip.world.daemonStep new choice
          { skip with world := world, ended := skip.ended || sawEnd world.processes new }
  | .playerEnds pid =>
      match skip.world.processes pid with
      | some (.player _ _ _) =>
          { skip with
            world := { skip.world with
              processes := Function.update skip.world.processes pid none } }
      | _ => skip

/-- A command beside an old daemon, in any order of their steps. -/
def machine (request : Request) (old : Nat) (start : Skip) : Machine Skip Label where
  initial := start
  step := step request old

/-- A process gets an id that is free, and a daemon not that of the one it replaces. -/
def Legal (old : Nat) (skip : Skip) : Label → Prop
  | .command choice =>
      skip.point = .starting .spawn → skip.world.processes choice.pid = none ∧ choice.pid ≠ old
  | .old choice =>
      ∀ point ∈ daemonAt skip.world.processes old, point.spawns = true →
        skip.world.processes choice.pid = none
  | .new choice =>
      ∀ new ∈ skip.new, ∀ point ∈ daemonAt skip.world.processes new, point.spawns = true →
        skip.world.processes choice.pid = none
  | .playerEnds _ => True

/-! ## What the command is for -/

/-- Once the command and the daemon it replaces are done, and until the first track of the new
daemon ends, the files say that the track that was chosen is played, and by the new daemon from
the moment it has said who it is. -/
def Wins (old : Nat) (skip : Skip) : Prop :=
  ∀ new ∈ skip.new, skip.point = .finished → daemonAt skip.world.processes old = none →
    skip.ended = false →
      skip.world.files.status = some .playing ∧ skip.world.files.index = skip.chosen ∧
        (daemonAt skip.world.processes new ≠ some .writePid → skip.world.files.pid = some new)

/-- The value that the next step of the daemon writes to the index file. -/
def indexWrite (choice : Choice) : DaemonPoint → Option Nat
  | .ensuring .writeIndex | .resetIndex _ => some 0
  | .skipTrack total idx => some ((idx + 1) % total)
  | .writeNext idx shuffle total =>
      if shuffle = true ∧ total > 1 then some (choice.random % total)
      else if total = 0 then none
      else some ((idx + 1) % total)
  | _ => none

/-- The next step of the daemon is its last. -/
def lastStep : DaemonPoint → Bool
  | .exitMarkStopped => true
  | .writeNext _ _ total => total == 0
  | _ => false

/-- The next step of the daemon looks for the track. -/
def looksUp : DaemonPoint → Bool
  | .countTracks | .checkTracks _ _ | .findTrack _ _ => true
  | _ => false

/-- The command has marked the playback as running. -/
def Marked (skip : Skip) : Prop := skip.point = .starting .spawn ∨ skip.point = .finished

/-- The old daemon writes no index but the chosen one once there is a choice, and does not
come to its end after the command has marked the playback; the new daemon, looking for the
track, finds a file in its place in the playlist. -/
def Undisturbed (old : Nat) (skip : Skip) : Label → Prop
  | .old choice =>
      ∀ point ∈ daemonAt skip.world.processes old,
        (∀ chosen ∈ skip.chosen, ∀ value ∈ indexWrite choice point, value = chosen) ∧
        (skip.Marked → lastStep point = false)
  | .new choice =>
      skip.ended = false → ∀ new ∈ skip.new, ∀ point ∈ daemonAt skip.world.processes new,
        looksUp point = true → ∀ chosen ∈ skip.chosen,
          skip.world.files.playlist.getD chosen [] ≠ [] ∧ choice.present = true
  | .command _ | .playerEnds _ => True

instance (old : Nat) (skip : Skip) (label : Label) : Decidable (skip.Legal old label) := by
  cases label <;> unfold Legal <;> infer_instance

instance (skip : Skip) : Decidable skip.Marked := inferInstanceAs (Decidable (_ ∨ _))

instance (old : Nat) (skip : Skip) (label : Label) : Decidable (skip.Undisturbed old label) := by
  cases label <;> unfold Undisturbed <;> infer_instance

instance (old : Nat) (skip : Skip) : Decidable (skip.Wins old) := by
  unfold Wins
  infer_instance

/-! ## What a step does to the index, and to itself -/

/-- `ensure_playlist` writes the index only where it finds none. -/
theorem index_ensure (choice : Choice) (files : Files) (point : Ensure) :
    (point.step choice files).1.index =
      if point = .writeIndex then some 0 else files.index := by
  cases point <;> simp only [Ensure.step] <;> first | rfl | (split <;> rfl)

/-- A daemon writes the index at the steps that say so, and at no other. -/
theorem index_daemon (self : Nat) (choice : Choice) (playing : Bool) (files : Files)
    (point : DaemonPoint) :
    (point.step self choice playing files).1.index =
      (indexWrite choice point).or files.index := by
  cases point with
  | ensuring point =>
      simp only [DaemonPoint.step, index_ensure]
      cases point <;> rfl
  | writeNext idx shuffle total =>
      simp only [DaemonPoint.step, indexWrite]
      split_ifs <;> rfl
  | countTracks | readIndex | checkTracks | findTrack | wait | readStatus =>
      simp only [DaemonPoint.step]
      split <;> rfl
  | _ => rfl

/-- A daemon ends after a last step only. -/
theorem lastStep_of_none {self : Nat} {choice : Choice} {playing : Bool} {files : Files}
    {point : DaemonPoint} (ends : (point.step self choice playing files).2 = none) :
    lastStep point = true := by
  cases point with
  | exitMarkStopped => rfl
  | writeNext idx shuffle total =>
      simp only [DaemonPoint.step] at ends
      split_ifs at ends with random empty
      exact beq_iff_eq.mpr empty
  | countTracks | readIndex | checkTracks | findTrack | wait | readStatus =>
      simp only [DaemonPoint.step] at ends
      split at ends <;> cases ends
  | _ => cases ends

/-! ## The old daemon -/

/-- An old daemon that is not late leaves the chosen index alone. -/
theorem index_old {old : Nat} {skip : Skip} {choice : Choice}
    (undisturbed : skip.Undisturbed old (.old choice)) {chosen : Nat}
    (choose : skip.chosen = some chosen) :
    (skip.world.daemonStep old choice).files.index = skip.world.files.index ∨
      (skip.world.daemonStep old choice).files.index = some chosen := by
  cases here : daemonAt skip.world.processes old with
  | none => exact .inl (congrArg (·.files.index) (daemonStep_of_none here choice))
  | some point =>
      rw [files_daemonStep here, index_daemon]
      cases write : indexWrite choice point with
      | none => exact .inl rfl
      | some value =>
          rw [(undisturbed point here).1 chosen choose value write]
          exact .inr rfl

/-- After the mark an old daemon that is not late does not end: if it has ended, it had before,
and nothing happens. -/
theorem old_gone {old : Nat} {skip : Skip} {choice : Choice}
    (undisturbed : skip.Undisturbed old (.old choice)) (marked : skip.Marked)
    (gone : daemonAt (skip.world.daemonStep old choice).processes old = none) :
    daemonAt skip.world.processes old = none ∧ skip.world.daemonStep old choice = skip.world := by
  cases here : daemonAt skip.world.processes old with
  | none => exact ⟨rfl, daemonStep_of_none here choice⟩
  | some point =>
      rw [daemonAt_daemonStep_self here] at gone
      have goesOn := (undisturbed point here).2 marked
      rw [lastStep_of_none gone] at goesOn
      cases goesOn

/-! ## The new daemon -/

/-- The new daemon is on its way to play the chosen track, or playing it. -/
def OnWay (chosen : Nat) : DaemonPoint → Prop
  | .ensuring point => point ≠ .writeIndex
  | .readIndex total => chosen < total
  | .checkTracks _ idx | .findTrack _ idx => idx = chosen
  | .writePid | .markPlaying | .countTracks | .writeTrack _ _ | .markTrackPlaying _ _
  | .startPlayer _ _ | .writePlayerPid _ _ | .wait _ _ => True
  | _ => False

/-- What a new daemon on its way does to the files: it may mark itself and the playback. -/
structure Announces (daemon : Nat) (point : DaemonPoint) (before after : Files) : Prop where
  index_eq : after.index = before.index
  status_eq : after.status = before.status ∨ after.status = some .playing
  pid_eq : after.pid = if point = .writePid then some daemon else before.pid

/-- A step that changes nothing announces nothing. -/
theorem announces_refl {self : Nat} {point : DaemonPoint} (later : point ≠ .writePid)
    (files : Files) : Announces self point files files := ⟨rfl, .inl rfl, by rw [if_neg later]⟩

/-- `ensure_playlist` announces nothing, as long as it does not write the index. -/
theorem announces_ensure {self : Nat} {point : Ensure} (other : point ≠ .writeIndex)
    (choice : Choice) (files : Files) :
    Announces self (.ensuring point) files (point.step choice files).1 := by
  refine ⟨by rw [index_ensure, if_neg other], .inl ?_, ?_⟩
  · cases point <;> simp only [Ensure.step] <;> split <;> rfl
  · rw [if_neg (by rintro ⟨⟩)]
    cases point <;> simp only [Ensure.step] <;> split <;> rfl

/-- With the index there, `ensure_playlist` does not write it. -/
theorem ensure_keeps_index {point next : Ensure} {choice : Choice} {files : Files}
    (present : files.index.isSome = true) (steps : (point.step choice files).2 = some next) :
    next ≠ .writeIndex := by
  cases point <;> simp only [Ensure.step, present, if_true] at steps <;>
    first
    | (split at steps <;> cases steps <;> rintro ⟨⟩)
    | (cases steps <;> rintro ⟨⟩)

/-- A track that is found is one of the playlist. -/
theorem lt_of_getD_ne {playlist : List (List UInt8)} {idx : Nat}
    (listed : playlist.getD idx [] ≠ []) : idx < playlist.length := by
  by_contra beyond
  exact listed (List.getD_eq_default _ _ (Nat.le_of_not_lt beyond))

/-- A step of a daemon on its way brings it nearer, unless it sees the end of the track. -/
theorem onWay_step (self : Nat) (playing : Bool) {chosen : Nat} {choice : Choice} {files : Files}
    {point : DaemonPoint} (way : OnWay chosen point) (index : files.index = some chosen)
    (listed : looksUp point = true → files.playlist.getD chosen [] ≠ [] ∧ choice.present = true) :
    Announces self point files (point.step self choice playing files).1 ∧
      ∃ next, (point.step self choice playing files).2 = some next ∧ next ≠ .writePid ∧
        (OnWay chosen next ∨ ∃ idx, next = .removePlayerPid idx) := by
  cases point with
  | writePid => exact ⟨⟨rfl, .inl rfl, rfl⟩, _, rfl, by rintro ⟨⟩, .inl trivial⟩
  | markPlaying =>
      exact ⟨⟨rfl, .inr rfl, rfl⟩, _, rfl, by rintro ⟨⟩, .inl (by rintro ⟨⟩)⟩
  | ensuring point =>
      have present : files.index.isSome = true := by rw [index]; rfl
      refine ⟨announces_ensure way choice files, _, rfl, ?_, .inl ?_⟩
      · cases steps : (point.step choice files).2 <;> rintro ⟨⟩
      · cases steps : (point.step choice files).2 with
        | none => trivial
        | some next => exact ensure_keeps_index present steps
  | countTracks =>
      have inside := lt_of_getD_ne (listed rfl).1
      have some : ¬ files.playlist.length = 0 := by omega
      simp only [DaemonPoint.step, if_neg some]
      exact ⟨announces_refl (by rintro ⟨⟩) files, _, rfl, by rintro ⟨⟩, .inl inside⟩
  | readIndex total =>
      have inRange : ¬ files.index.getD 0 ≥ total := by
        rw [index]
        exact Nat.not_le_of_lt way
      simp only [DaemonPoint.step, if_neg inRange]
      refine ⟨announces_refl (by rintro ⟨⟩) files, _, rfl, by rintro ⟨⟩, .inl ?_⟩
      rw [index]
      rfl
  | checkTracks total idx =>
      have inside := lt_of_getD_ne (listed rfl).1
      have some : ¬ files.playlist.length = 0 := by omega
      simp only [DaemonPoint.step, if_neg some]
      exact ⟨announces_refl (by rintro ⟨⟩) files, _, rfl, by rintro ⟨⟩, .inl way⟩
  | findTrack total idx =>
      obtain ⟨line, present⟩ := listed rfl
      have found : ¬ (files.playlist.getD idx [] = [] ∨ choice.present = false) := by
        rw [show idx = chosen from way, present]
        simpa using line
      simp only [DaemonPoint.step, if_neg found]
      exact ⟨announces_refl (by rintro ⟨⟩) files, _, rfl, by rintro ⟨⟩, .inl trivial⟩
  | writeTrack | startPlayer | writePlayerPid =>
      exact ⟨⟨rfl, .inl rfl, rfl⟩, _, rfl, by rintro ⟨⟩, .inl trivial⟩
  | markTrackPlaying =>
      exact ⟨⟨rfl, .inr rfl, rfl⟩, _, rfl, by rintro ⟨⟩, .inl trivial⟩
  | wait idx player =>
      simp only [DaemonPoint.step]
      split
      · exact ⟨announces_refl (by rintro ⟨⟩) files, _, rfl, by rintro ⟨⟩, .inl trivial⟩
      · exact ⟨announces_refl (by rintro ⟨⟩) files, _, rfl, by rintro ⟨⟩, .inr ⟨idx, rfl⟩⟩
  | _ => exact way.elim

/-! ## The three phases of the command -/

/-- No playback has been started, and no index been chosen. -/
structure Choosing (skip : Skip) : Prop where
  new_eq : skip.new = none
  chosen_eq : skip.chosen = none

/-- The index file holds the choice; a missing one is as good as zero as long as
`ensure_playlist` is still to write it. -/
def Kept (chosen : Nat) (index : Option Nat) : StartPoint → Prop
  | .ensuring .testShuffle | .ensuring .writeShuffle | .markPlaying | .spawn =>
      index = some chosen
  | .ensuring .writeIndex => chosen = 0 ∧ (index = some chosen ∨ index = none)
  | _ => index = some chosen ∨ index = none ∧ chosen = 0

/-- `start_playback` is under way with a choice. -/
structure Starting (old : Nat) (skip : Skip) (point : StartPoint) (chosen : Nat) : Prop where
  new_eq : skip.new = none
  chosen_eq : skip.chosen = some chosen
  kept : Kept chosen skip.world.files.index point
  status_eq : point = .spawn → daemonAt skip.world.processes old = none →
    skip.world.files.status = some .playing

/-- The new daemon runs. -/
structure Running (old : Nat) (skip : Skip) (chosen new : Nat) : Prop where
  new_eq : skip.new = some new
  chosen_eq : skip.chosen = some chosen
  apart : new ≠ old
  onWay : skip.ended = false → ∃ point, daemonAt skip.world.processes new = some point ∧
    OnWay chosen point ∧ skip.world.files.index = some chosen ∧
    (daemonAt skip.world.processes old = none → skip.world.files.status = some .playing ∧
      (point ≠ .writePid → skip.world.files.pid = some new))

/-- What is known of the command where it stands. -/
def Sound (old : Nat) (skip : Skip) : Prop :=
  match skip.point with
  | .finished => ∃ chosen new, skip.Running old chosen new
  | .starting .markStopped =>
      skip.new = none ∧
        ∀ chosen, skip.chosen = some chosen → skip.world.files.index = some chosen
  | .starting point => ∃ chosen, skip.Starting old point chosen
  | _ => skip.Choosing

/-- Where the command stands says that it has its way. -/
theorem Sound.wins {old : Nat} {skip : Skip} (sound : skip.Sound old) : skip.Wins old := by
  intro new started finished gone running
  unfold Sound at sound
  rw [finished] at sound
  obtain ⟨chosen, other, runs⟩ := sound
  obtain rfl : other = new := Option.some_inj.mp (runs.new_eq.symm.trans started)
  obtain ⟨point, here, -, index, files⟩ := runs.onWay running
  obtain ⟨status, pid⟩ := files gone
  refine ⟨status, index.trans runs.chosen_eq.symm, fun announced => pid ?_⟩
  rintro rfl
  exact announced here

/-- Writing the chosen index keeps the choice. -/
theorem Kept.write {chosen : Nat} {index : Option Nat} {point : StartPoint}
    (kept : Kept chosen index point) : Kept chosen (some chosen) point := by
  cases point with
  | ensuring point =>
      cases point with
      | testShuffle | writeShuffle => exact rfl
      | writeIndex => exact ⟨kept.1, .inl rfl⟩
      | _ => exact .inl rfl
  | markPlaying | spawn => exact rfl
  | _ => exact .inl rfl

/-- Only the files and the places of the daemons matter. -/
theorem Sound.congr {old : Nat} {skip : Skip} (sound : skip.Sound old) {world : World}
    (files : world.files = skip.world.files)
    (daemons : daemonAt world.processes = daemonAt skip.world.processes) :
    { skip with world := world }.Sound old := by
  simp only [Sound] at sound ⊢
  split at sound
  · next stands =>
      obtain ⟨chosen, new, runs⟩ := sound
      refine ⟨chosen, new, runs.new_eq, runs.chosen_eq, runs.apart, ?_⟩
      simp only [files, daemons]
      exact runs.onWay
  · exact ⟨sound.1, by simpa only [files] using sound.2⟩
  · obtain ⟨chosen, starts⟩ := sound
    refine ⟨chosen, starts.new_eq, starts.chosen_eq, ?_, ?_⟩
    · simp only [files]
      exact starts.kept
    · simp only [files, daemons]
      exact starts.status_eq
  · exact ⟨sound.new_eq, sound.chosen_eq⟩

/-- Behind its first step, `start_playback` is under way with a choice. -/
theorem sound_starting {old : Nat} {skip : Skip} {point : StartPoint}
    (stands : skip.point = .starting point) (later : point ≠ .markStopped) :
    skip.Sound old ↔ ∃ chosen, skip.Starting old point chosen := by
  unfold Sound
  rw [stands]
  cases point with
  | markStopped => exact absurd rfl later
  | _ => exact Iff.rfl

/-! ### A step of the old daemon -/

/-- A step of the old daemon leaves the choice alone while the new one is started. -/
theorem Starting.old {old : Nat} {skip : Skip} {point : StartPoint} {chosen : Nat}
    (starts : skip.Starting old point chosen) (stands : skip.point = .starting point)
    {choice : Choice} (undisturbed : skip.Undisturbed old (.old choice)) :
    { skip with world := skip.world.daemonStep old choice }.Starting old point chosen where
  new_eq := starts.new_eq
  chosen_eq := starts.chosen_eq
  kept := by
    rcases index_old undisturbed starts.chosen_eq with same | written
    · exact (congrArg (Kept chosen · point) same).mpr starts.kept
    · exact (congrArg (Kept chosen · point) written).mpr starts.kept.write
  status_eq := by
    rintro rfl gone
    obtain ⟨before, same⟩ := old_gone undisturbed (.inl stands) gone
    have marked := starts.status_eq rfl before
    exact (congrArg (·.files.status) same).trans marked

/-- A step of the old daemon leaves the new one on its way. -/
theorem Running.old {old : Nat} {skip : Skip} {chosen new : Nat}
    (runs : skip.Running old chosen new) (stands : skip.point = .finished) {choice : Choice}
    (legal : skip.Legal old (.old choice)) (undisturbed : skip.Undisturbed old (.old choice)) :
    { skip with world := skip.world.daemonStep old choice }.Running old chosen new where
  new_eq := runs.new_eq
  chosen_eq := runs.chosen_eq
  apart := runs.apart
  onWay := by
    intro running
    obtain ⟨point, here, way, index, files⟩ := runs.onWay running
    refine ⟨point, (daemonAt_daemonStep_other runs.apart legal).trans here, way, ?_, ?_⟩
    · rcases index_old undisturbed runs.chosen_eq with same | written
      · exact same.trans index
      · exact written
    · intro gone
      obtain ⟨before, same⟩ := old_gone undisturbed (.inr stands) gone
      simp only [same]
      exact files before

/-- Whatever is known of the command, a step of the old daemon leaves it so. -/
theorem Sound.old {old : Nat} {skip : Skip} (sound : skip.Sound old) {choice : Choice}
    (legal : skip.Legal old (.old choice)) (undisturbed : skip.Undisturbed old (.old choice)) :
    { skip with world := skip.world.daemonStep old choice }.Sound old := by
  cases stands : skip.point with
  | finished =>
      simp only [Sound, stands] at sound ⊢
      obtain ⟨chosen, new, runs⟩ := sound
      exact ⟨chosen, new, stands ▸ runs.old stands legal undisturbed⟩
  | starting point =>
      by_cases first : point = .markStopped
      · subst first
        simp only [Sound, stands] at sound ⊢
        refine ⟨sound.1, ?_⟩
        intro chosen choose
        rcases index_old undisturbed choose with same | written
        · exact same.trans (sound.2 chosen choose)
        · exact written
      · obtain ⟨chosen, starts⟩ := (sound_starting stands first).mp sound
        refine (sound_starting rfl first).mpr ⟨chosen, ?_⟩
        rw [← stands]
        exact starts.old stands undisturbed
  | _ =>
      simp only [Sound, stands] at sound ⊢
      exact ⟨sound.new_eq, sound.chosen_eq⟩

/-! ### A step of the new daemon -/

/-- A daemon that has not just seen the end of a track is not about to note it. -/
theorem sawEnd_eq_false {processes : Processes} {pid : Nat} {point : DaemonPoint}
    (here : daemonAt processes pid = some point) (going : sawEnd processes pid = false) :
    ∀ idx, point ≠ .removePlayerPid idx := by
  rintro idx rfl
  simp [sawEnd, here] at going

/-- A step of the new daemon leaves it on its way, or ends its first track. -/
theorem Running.new {old : Nat} {skip : Skip} {chosen new : Nat}
    (runs : skip.Running old chosen new) {choice : Choice}
    (legal : skip.Legal old (.new choice)) (undisturbed : skip.Undisturbed old (.new choice)) :
    { skip with
      world := skip.world.daemonStep new choice
      ended := skip.ended || sawEnd (skip.world.daemonStep new choice).processes new
      }.Running old chosen new where
  new_eq := runs.new_eq
  chosen_eq := runs.chosen_eq
  apart := runs.apart
  onWay := by
    intro running
    obtain ⟨before, going⟩ := Bool.or_eq_false_iff.mp running
    obtain ⟨point, here, way, index, files⟩ := runs.onWay before
    have listed : looksUp point = true → skip.world.files.playlist.getD chosen [] ≠ [] ∧
        choice.present = true := by
      intro looks
      exact undisturbed before new runs.new_eq point here looks chosen runs.chosen_eq
    obtain ⟨announces, next, steps, later, ahead⟩ :=
      onWay_step new (point.waits new skip.world.processes) way index listed
    rw [← daemonAt_daemonStep_self here] at steps
    rw [← files_daemonStep here] at announces
    have further : OnWay chosen next := by
      rcases ahead with further | ⟨idx, ends⟩
      · exact further
      · exact absurd ends (sawEnd_eq_false steps going idx)
    refine ⟨next, steps, further, announces.index_eq.trans index, ?_⟩
    intro gone
    rw [daemonAt_daemonStep_other runs.apart.symm (legal new runs.new_eq)] at gone
    obtain ⟨status, pid⟩ := files gone
    constructor
    · rcases announces.status_eq with same | marked
      · exact same.trans status
      · exact marked
    · intro _
      rw [announces.pid_eq]
      split
      · rfl
      · next announced => exact pid announced

/-- Whatever is known of the command, a step of the new daemon leaves it so. -/
theorem Sound.new {old : Nat} {skip : Skip} (sound : skip.Sound old) {new : Nat}
    (started : skip.new = some new) {choice : Choice} (legal : skip.Legal old (.new choice))
    (undisturbed : skip.Undisturbed old (.new choice)) :
    { skip with
      world := skip.world.daemonStep new choice
      ended := skip.ended || sawEnd (skip.world.daemonStep new choice).processes new
      }.Sound old := by
  have absurdly : ¬ skip.new = none := by
    rw [started]
    rintro ⟨⟩
  cases stands : skip.point with
  | finished =>
      simp only [Sound, stands] at sound ⊢
      obtain ⟨chosen, other, runs⟩ := sound
      obtain rfl : other = new := Option.some_inj.mp (runs.new_eq.symm.trans started)
      exact ⟨chosen, other, stands ▸ runs.new legal undisturbed⟩
  | starting point =>
      by_cases first : point = .markStopped
      · subst first
        simp only [Sound, stands] at sound
        exact absurd sound.1 absurdly
      · obtain ⟨chosen, starts⟩ := (sound_starting stands first).mp sound
        exact absurd starts.new_eq absurdly
  | _ =>
      simp only [Sound, stands] at sound
      exact absurd sound.new_eq absurdly

/-! ### A step of the command -/

/-- `ensure_playlist` keeps the choice. -/
theorem kept_ensure {chosen : Nat} {files : Files} {point : Ensure} (choice : Choice)
    (kept : Kept chosen files.index (.ensuring point)) :
    Kept chosen (point.step choice files).1.index
      (((point.step choice files).2.map .ensuring).getD .markPlaying) := by
  cases point with
  | testPlaylist | testSaved =>
      simp only [Ensure.step]
      split <;> exact kept
  | copySaved | find | savePlaylist => exact kept
  | testIndex =>
      simp only [Ensure.step]
      rcases kept with written | ⟨missing, zero⟩
      · rw [written]
        exact written
      · rw [missing]
        exact ⟨zero, .inr missing⟩
  | writeIndex => exact congrArg some kept.1.symm
  | testShuffle =>
      simp only [Ensure.step]
      split <;> exact kept
  | writeShuffle => exact kept

/-- A step of `start_playback` keeps the choice and leads on to the new daemon. -/
theorem starting_command {old : Nat} {skip : Skip} {point : StartPoint} {chosen : Nat}
    (starts : skip.Starting old point chosen) (stands : skip.point = .starting point)
    (later : point ≠ .markStopped) (request : Request) {choice : Choice}
    (legal : skip.Legal old (.command choice)) : (skip.commandStep request choice).Sound old := by
  obtain ⟨new, choose, kept, status⟩ := starts
  simp only [commandStep, stands, if_neg later]
  cases point with
  | markStopped => exact absurd rfl later
  | ensuring point =>
      have after := kept_ensure choice kept
      simp only [StartPoint.step]
      cases steps : (point.step choice skip.world.files).2 with
      | none =>
          rw [steps] at after
          exact ⟨chosen, new, choose, after, by rintro ⟨⟩⟩
      | some next =>
          rw [steps] at after
          refine (sound_starting rfl (by rintro ⟨⟩)).mpr ⟨chosen, new, choose, after, ?_⟩
          rintro ⟨⟩
  | markPlaying => exact ⟨chosen, new, choose, kept, fun _ _ => rfl⟩
  | spawn =>
      have apart := (legal stands).2
      refine ⟨chosen, choice.pid, rfl, choose, apart, ?_⟩
      intro _
      refine ⟨.writePid, ?_, trivial, kept, ?_⟩
      · exact daemonAt_update_self skip.world.processes choice.pid (some .writePid)
      · intro gone
        refine ⟨status rfl ?_, fun later => absurd rfl later⟩
        exact (daemonAt_update_of_ne apart.symm _).symm.trans gone
  | testPlayerPid | testPid =>
      simp only [StartPoint.step]
      split <;> exact ⟨chosen, new, choose, kept, by rintro ⟨⟩⟩
  | _ => exact ⟨chosen, new, choose, kept, by rintro ⟨⟩⟩

/-- Whatever is known of the command, its own step leads on. -/
theorem Sound.command {old : Nat} {skip : Skip} (sound : skip.Sound old) (request : Request)
    {choice : Choice} (legal : skip.Legal old (.command choice)) :
    (skip.commandStep request choice).Sound old := by
  cases stands : skip.point with
  | finished | declined =>
      simp only [commandStep, stands]
      exact sound
  | starting point =>
      by_cases first : point = .markStopped
      · subst first
        simp only [Sound, stands] at sound
        simp only [commandStep, stands, if_true, StartPoint.step]
        cases choose : skip.chosen with
        | none =>
            refine ⟨skip.world.files.index.getD 0, sound.1, rfl, ?_, by rintro ⟨⟩⟩
            cases index : skip.world.files.index with
            | none => exact .inr ⟨rfl, rfl⟩
            | some value => exact .inl rfl
        | some chosen =>
            exact ⟨chosen, sound.1, rfl, .inl (sound.2 chosen choose), by rintro ⟨⟩⟩
      · obtain ⟨chosen, starts⟩ := (sound_starting stands first).mp sound
        exact starting_command starts stands first request legal
  | ensuring point =>
      simp only [Sound, stands] at sound
      simp only [commandStep, stands]
      cases (point.step choice skip.world.files).2 <;> exact ⟨sound.new_eq, sound.chosen_eq⟩
  | countTracks =>
      simp only [Sound, stands] at sound
      simp only [commandStep, stands]
      split <;> exact ⟨sound.new_eq, sound.chosen_eq⟩
  | readIndex total =>
      simp only [Sound, stands] at sound
      simp only [commandStep, stands]
      cases request <;> exact ⟨sound.new_eq, sound.chosen_eq⟩
  | readShuffle total idx =>
      simp only [Sound, stands] at sound
      simp only [commandStep, stands]
      split <;> exact ⟨sound.new_eq, sound.chosen_eq⟩
  | writePlaylist file =>
      simp only [Sound, stands] at sound
      simp only [commandStep, stands]
      exact ⟨sound.new_eq, sound.chosen_eq⟩
  | writeIndex value =>
      simp only [Sound, stands] at sound
      simp only [commandStep, stands]
      exact ⟨sound.new_eq, fun _ choose => choose⟩

/-! ## The command wins -/

/-- The end of a player is no concern of the command. -/
theorem Sound.playerEnds {old : Nat} {skip : Skip} (sound : skip.Sound old) (request : Request)
    (pid : Nat) : (skip.step request old (.playerEnds pid)).Sound old := by
  simp only [step]
  split
  · next player =>
      have vacant : daemonAt skip.world.processes pid = none := by
        unfold daemonAt
        rw [player]
      have same : daemonAt (Function.update skip.world.processes pid none) =
          daemonAt skip.world.processes :=
        funext (daemonAt_update_of_none vacant (by rintro _ ⟨⟩))
      exact sound.congr rfl same
  · exact sound

/-- Every step that is possible and undisturbed keeps what is known of the command. -/
theorem sound_step {request : Request} {old : Nat} {skip : Skip} {label : Label}
    (sound : skip.Sound old) (allowed : skip.Legal old label ∧ skip.Undisturbed old label) :
    (skip.step request old label).Sound old := by
  obtain ⟨legal, undisturbed⟩ := allowed
  cases label with
  | command choice => exact sound.command request legal
  | old choice => exact sound.old legal undisturbed
  | new choice =>
      simp only [step]
      split
      · exact sound
      · next started => exact sound.new started legal undisturbed
  | playerEnds pid => exact sound.playerEnds request pid

/-- Whatever the old daemon is doing when the command comes, and however the steps of the
three interleave: if the old daemon is not late and the new one finds the track, the command
has its way. -/
theorem skip_wins (request : Request) (old : Nat) (world : World) (labels : List Label)
    (legal : (machine request old { world := world, point := request.entry }).StepsMeet
      (Legal old) { world := world, point := request.entry } labels)
    (undisturbed : (machine request old { world := world, point := request.entry }).StepsMeet
      (Undisturbed old) { world := world, point := request.entry } labels) :
    (machine request old { world := world, point := request.entry }).Always (Wins old)
      { world := world, point := request.entry } labels := by
  have start : Sound old { world := world, point := request.entry } := by
    cases request with
    | play argument =>
        cases argument with
        | index | file => exact ⟨rfl, rfl⟩
        | neither => exact ⟨rfl, by rintro _ ⟨⟩⟩
    | next | prev => exact ⟨rfl, rfl⟩
  refine Machine.always_of_allowed (Sound old) (fun _ => Sound.wins) ?_ start
    (legal.and undisturbed)
  intro skip label sound allowed
  exact sound_step sound allowed

/-- Three tracks and a daemon that has just been started. -/
def threeTracks : World where
  files :=
    { status := some .playing, index := some 0, shuffle := some false
      playlist := [[97], [98], [99]] }
  processes := fun pid => if pid = 100 then some (.daemon .writePid) else none

/-- The daemon plays its track when `next` comes, and is killed. -/
def killedInTime : List Label :=
  List.replicate 13 (.old { pid := 200 }) ++ List.replicate 23 (.command { pid := 300 }) ++
    List.replicate 13 (.new { pid := 400 })

/-- The old daemon is killed in time, and `next` has its way. -/
theorem skip_wins_killed_in_time :
    (machine .next 100 { world := threeTracks, point := Request.next.entry }).Always (Wins 100)
      { world := threeTracks, point := Request.next.entry } killedInTime :=
  skip_wins .next 100 threeTracks killedInTime (by decide +kernel) (by decide +kernel)

/-- Woken by the end of its player, the daemon removes its process id file before the command
looks for it, and finishes last. -/
def survives : List Label :=
  List.replicate 13 (.old { pid := 200 }) ++ List.replicate 11 (.command { pid := 300 }) ++
    List.replicate 4 (.old { pid := 200 }) ++ List.replicate 9 (.command { pid := 300 }) ++
    List.replicate 1 (.new { pid := 400 }) ++ List.replicate 2 (.old { pid := 200 })

/-- The new daemon plays, and the status says that it does not. -/
theorem skip_marked_stopped :
    (machine .next 100 { world := threeTracks, point := Request.next.entry }).StepsMeet
      (Legal 100) { world := threeTracks, point := Request.next.entry } survives ∧
    ¬ (machine .next 100 { world := threeTracks, point := Request.next.entry }).Always (Wins 100)
      { world := threeTracks, point := Request.next.entry } survives := by
  decide +kernel

end Skip

end Nookobo.Audio
