import Nookobo.Mtp.ObjectHandles
import Nookobo.Mtp.WatchedFolders

/-!
# The host's view of watched folders

Files come and go in the folders that are watched, by the hand of the host and
of others, and the events wait for the thread of `inotify.c`, which reads some of
them at a time and looks at the files when it gets to them. In every order of
these steps the host sees the files of a folder as soon as no event about them
is left, except where a file is gone again before the thread looks, or where an
event that the host needed fills the thread's buffer to its end and is passed
over.
-/

namespace Nookobo.Mtp

open Nookobo.Semantics FsHandlesDb

/-! ## The system -/

/-- The folders on the disk, the events on their way, the responder, and what the host knows. The
first `inBuffer` events are in the buffer of the thread, which has come to `offset` there; the
others are still with the kernel, whose queue does not overflow. Every event has a name, since no
watch goes away. -/
structure FolderState where
  contents : Contents
  queue : List WatchEvent
  inBuffer : Nat
  offset : Nat
  db : FsHandlesDb
  fileinfo : FileFoundInfo
  host : Nat → Bool
  running : Bool

/-- Files are made, changed and removed by other programs; the host sends a file to the folder at a
position of the database or deletes one there; the thread reads events, or treats the next one,
all its rounds at once. -/
inductive FolderStep where
  | create (wd : Int) (name : List UInt8) (file : Bool × Int) (moved : Bool)
  | modify (wd : Int) (name : List UInt8) (size : Int)
  | remove (wd : Int) (name : List UInt8) (moved : Bool)
  | send (i : Nat) (name : List UInt8) (objectsize : Int)
  | delete (i : Nat) (name : List UInt8)
  | read
  | treat

namespace FolderState

/-- What is under a name changes, and the watch says so. -/
def change (wd : Int) (name : List UInt8) (file : Option (Bool × Int)) (mask : WatchMask)
    (state : FolderState) : FolderState :=
  { state with
    contents := Function.update state.contents wd
      (Function.update (state.contents wd) name file)
    queue := queueUp state.inBuffer state.queue ⟨wd, mask, name⟩ }

/-- The thread has treated all it has read, and reads again. -/
def read (state : FolderState) : FolderState :=
  match state.inBuffer with
  | 0 => { state with inBuffer := fitting inotifyRdBufSize state.queue, offset := 0 }
  | _ + 1 => state

/-- The event that the thread comes to. -/
def next? (state : FolderState) : Option WatchEvent :=
  if state.inBuffer = 0 then none else state.queue.head?

/-- The thread goes on to the event behind. -/
def advance (event : WatchEvent) (state : FolderState) : FolderState :=
  { state with
    queue := state.queue.tail
    inBuffer := state.inBuffer - 1
    offset := state.offset + event.size }

/-- A round of the thread's inner loop. -/
def treat (rootOf : Nat → Option (List UInt8)) (disk : Contents → FileSystem)
    (state : FolderState) : FolderState :=
  match state.next? with
  | none => state
  | some event =>
      -- the sanity check against an overrun also refuses an event that ends where the buffer does
      if state.offset + event.size < inotifyRdBufSize then
        match Watcher.onEvent (disk state.contents) rootOf event
            ⟨state.db, state.fileinfo, []⟩ with
        | none => { state.advance event with running := false }
        | some watcher =>
            { state.advance event with
              db := watcher.db
              fileinfo := watcher.fileinfo
              host := hear state.host watcher.pushed }
      else state.advance event

/-- The end of `parse_incoming_dataset` for a file: it is made or made empty, `add_entry` gives it
an object, and the host is told the handle. A folder with the name stays. -/
def send (i : Nat) (name : List UInt8) (objectsize : Int) (state : FolderState) : FolderState :=
  match state.db.entries[i]? with
  | none => state
  | some folder =>
      let made (mask : WatchMask) : FolderState :=
        let (j, db) := state.db.addEntry ⟨false, name, objectsize⟩ folder.handle folder.storageId
        { state.change folder.watchDescriptor name (some (false, 0)) mask with
          db
          host := Function.update state.host (db.handleAt j) true }
      match state.contents folder.watchDescriptor name with
      | none => made .create
      | some (false, _) => made .modify
      | some (true, _) => state

/-- `delete_tree` of a file, in a folder. -/
def delete (i : Nat) (name : List UInt8) (state : FolderState) : FolderState :=
  match state.db.entries[i]? with
  | none => state
  | some folder =>
      match state.db.findEntry name folder.handle folder.storageId,
          state.contents folder.watchDescriptor name with
      | some j, some (false, _) =>
          { state.change folder.watchDescriptor name none .delete with
            db := state.db.markDeleted j
            host := Function.update state.host (state.db.handleAt j) false }
      | _, _ => state

end FolderState

/-- One step of the directory, of the host or of the inotify thread. -/
def folderStep (rootOf : Nat → Option (List UInt8)) (disk : Contents → FileSystem)
    (state : FolderState) : FolderStep → FolderState
  | .create wd name file moved =>
      state.change wd name (some file) (if moved then .movedTo else .create)
  | .modify wd name size =>
      state.change wd name ((state.contents wd name).map fun file => (file.1, size)) .modify
  | .remove wd name moved => state.change wd name none (if moved then .movedFrom else .delete)
  | .send i name objectsize => state.send i name objectsize
  | .delete i name => state.delete i name
  | .read => state.read
  | .treat => state.treat rootOf disk

/-- The watched folders, the host and the thread, in any order of their steps. -/
def folderMachine (rootOf : Nat → Option (List UInt8)) (disk : Contents → FileSystem)
    (initial : FolderState) : Machine FolderState FolderStep where
  initial := initial
  step := folderStep rootOf disk

/-- No event on its way is about the name coming or going. -/
def Quiet (queue : List WatchEvent) (wd : Int) (name : List UInt8) : Prop :=
  ∀ event ∈ queue, event.wd = wd → event.name = name → event.mask.comes = none

/-- The host sees what is in the watched folders, but for the files that events are on their way
about, and but for hidden files where these are not shown. -/
def HostFollows (showHiddenFiles : Bool) (watches : List WatchedFolder) (state : FolderState) :
    Prop :=
  state.running = true ∧ ∀ watch ∈ watches, ∀ name, listable showHiddenFiles name = true →
    Quiet state.queue watch.folder.watchDescriptor name →
    (HostSees state.host state.db watch.folder.handle watch.folder.storageId name ↔
      (state.contents watch.folder.watchDescriptor name).isSome = true)

/-- A file is still there when the thread comes to the event of its arrival. -/
def FoundInTime (watches : List WatchedFolder) (state : FolderState) (event : WatchEvent) : Prop :=
  event.mask.comes = some true → (∃ watch ∈ watches, watch.folder.watchDescriptor = event.wd) →
    (state.contents event.wd event.name).isSome = true

/-- The host can do without an event: it tells of no coming or going, the file is hidden, another
event about it follows, or the host knows of the file already. -/
def Dispensable (showHiddenFiles : Bool) (watches : List WatchedFolder) (state : FolderState)
    (event : WatchEvent) : Prop :=
  event.mask.comes = none ∨ listable showHiddenFiles event.name = false ∨
    ¬ Quiet state.queue.tail event.wd event.name ∨
    ∀ watch ∈ watches, watch.folder.watchDescriptor = event.wd →
      (HostSees state.host state.db watch.folder.handle watch.folder.storageId event.name ↔
        (state.contents event.wd event.name).isSome = true)

/-- The thread finds the files whose arrivals it treats, and an event that fills its buffer to the
end is dispensable. -/
def NothingMissed (showHiddenFiles : Bool) (watches : List WatchedFolder) (state : FolderState) :
    FolderStep → Prop
  | .treat => ∀ event ∈ state.next?,
      (state.offset + event.size = inotifyRdBufSize →
        Dispensable showHiddenFiles watches state event) ∧
      (state.offset + event.size ≠ inotifyRdBufSize → FoundInTime watches state event)
  | _ => True

/-- A name of a file, of a watch that is one. -/
def Proper (wd : Int) (name : List UInt8) : Prop :=
  wd ≠ -1 ∧ FileName name ∧ name.length ≤ 256

/-- Files have names, the host uses the watched folders, no watched folder or one above it goes
away, and there are handles left. -/
def FolderOrder (watches : List WatchedFolder) (state : FolderState) : FolderStep → Prop
  | .create wd name _ _ => Proper wd name
  | .modify wd name _ => Proper wd name
  | .remove wd name _ => Proper wd name ∧ Steady watches wd name
  | .send i name _ => FileName name ∧ name.length ≤ 256 ∧
      (∃ watch ∈ watches, watch.index = i) ∧ state.db.nextHandle + 1 < 2 ^ 32
  | .delete i name => FileName name ∧ name.length ≤ 256 ∧
      (∃ watch ∈ watches, watch.index = i ∧ Steady watches watch.folder.watchDescriptor name) ∧
      state.db.nextHandle + 1 < 2 ^ 32
  | .read => True
  | .treat => state.db.nextHandle + state.db.entries.length + 1 < 2 ^ 32

/-- The changes that the events of a watch tell of. -/
def changes (wd : Int) (queue : List WatchEvent) : List (List UInt8 × Bool) :=
  queue.filterMap fun event =>
    if event.wd = wd then event.mask.comes.map (event.name, ·) else none

/-- What the steps keep. -/
structure FolderInvariant (rootOf : Nat → Option (List UInt8)) (watches : List WatchedFolder)
    (showHiddenFiles : Bool) (state : FolderState) : Prop where
  running : state.running = true
  sound : Sound rootOf watches state.db state.host
  follows : ∀ watch ∈ watches, Follows (fun name => listable showHiddenFiles name = true)
    (fun name => (state.contents watch.folder.watchDescriptor name).isSome)
    (changes watch.folder.watchDescriptor state.queue)
    (Listed state.db watch.folder.handle watch.folder.storageId)
  proper : ∀ event ∈ state.queue, Proper event.wd event.name
  steady : ∀ event ∈ state.queue, event.mask.comes = some false →
    Steady watches event.wd event.name
  unnamed : ∀ wd, state.contents wd [] = none
  buffered : Buffered state.queue state.inBuffer state.offset

/-- Two watches of one folder are one watch. -/
def OneWatch (watches : List WatchedFolder) : Prop :=
  ∀ first ∈ watches, ∀ second ∈ watches, first.folder.handle = second.folder.handle →
    first.folder.storageId = second.folder.storageId →
    first.folder.watchDescriptor = second.folder.watchDescriptor

/-- An empty queue tells of no change. -/
theorem changes_nil (wd : Int) : changes wd [] = [] := rfl

/-- An event of another watch tells nothing of this one. -/
theorem changes_cons_of_ne {wd : Int} {event : WatchEvent} (other : event.wd ≠ wd)
    (queue : List WatchEvent) : changes wd (event :: queue) = changes wd queue :=
  List.filterMap_cons_none (if_neg other)

/-- An event of no coming or going tells nothing. -/
theorem changes_cons_of_none {event : WatchEvent} (silent : event.mask.comes = none) (wd : Int)
    (queue : List WatchEvent) : changes wd (event :: queue) = changes wd queue :=
  List.filterMap_cons_none (by rw [silent, Option.map_none, ite_self])

/-- An event of a coming or going tells of it first. -/
theorem changes_cons_of_some {event : WatchEvent} {comes : Bool}
    (tells : event.mask.comes = some comes) (queue : List WatchEvent) :
    changes event.wd (event :: queue) = (event.name, comes) :: changes event.wd queue :=
  List.filterMap_cons_some (by rw [if_pos rfl, tells]; rfl)

/-- What is on its way after an event tells of what it told before, and of that event. -/
theorem changes_queueUp (wd : Int) (inBuffer : Nat) (queue : List WatchEvent)
    (event : WatchEvent) :
    changes wd (queueUp inBuffer queue event) = changes wd queue ++ changes wd [event] := by
  rcases queueUp_cases inBuffer queue event with behind | ⟨same, silent⟩
  · rw [behind]
    exact List.filterMap_append
  · rw [same, changes_cons_of_none silent, changes_nil, List.append_nil]

/-- The events leave a name open exactly when none is about it coming or going. -/
theorem outcome_changes_iff {queue : List WatchEvent} {wd : Int} {name : List UInt8} :
    outcome name (changes wd queue) = none ↔ Quiet queue wd name := by
  rw [outcome_eq_none_iff]
  constructor
  · intro silent event member isWd isName
    cases comes : event.mask.comes with
    | none => rfl
    | some arrives =>
        refine absurd isName (silent (event.name, arrives) ?_)
        refine List.mem_filterMap.mpr ⟨event, member, ?_⟩
        rw [if_pos isWd, comes]
        rfl
  · rintro quiet ⟨other, arrives⟩ member rfl
    obtain ⟨event, inQueue, shows⟩ := List.mem_filterMap.mp member
    split at shows
    · next isWd =>
      obtain ⟨comes, isComes, same⟩ := Option.map_eq_some_iff.mp shows
      have isName := congrArg Prod.fst same
      rw [quiet event inQueue isWd isName] at isComes
      cases isComes
    · cases shows

section System

variable {rootOf : Nat → Option (List UInt8)} {disk : Contents → FileSystem}
  {watches : List WatchedFolder} {showHiddenFiles : Bool} {state : FolderState}

/-- The invariant gives what the host sees. -/
theorem FolderInvariant.hostFollows
    (invariant : FolderInvariant rootOf watches showHiddenFiles state) :
    HostFollows showHiddenFiles watches state := by
  refine ⟨invariant.running, fun watch member name shown quiet => ?_⟩
  rw [(invariant.sound.informed watch member).hostSees_iff]
  exact (invariant.follows watch member).settled name shown (outcome_changes_iff.mpr quiet)

end System

/-- What a change of the directory leaves in it. -/
theorem isSome_change (state : FolderState) (wd : Int) (name : List UInt8)
    (file : Option (Bool × Int)) (mask : WatchMask) (wd' : Int) (name' : List UInt8) :
    ((state.change wd name file mask).contents wd' name').isSome =
      if wd' = wd ∧ name' = name then file.isSome else (state.contents wd' name').isSome := by
  change ((Function.update state.contents wd (Function.update (state.contents wd) name file))
    wd' name').isSome = _
  by_cases isWd : wd' = wd
  · subst isWd
    rw [Function.update_self]
    by_cases isName : name' = name
    · rw [isName, Function.update_self, if_pos ⟨rfl, rfl⟩]
    · rw [Function.update_of_ne isName, if_neg fun both => isName both.2]
  · rw [Function.update_of_ne isWd, if_neg fun both => isWd both.1]

/-- The event that the thread comes to is the first on its way, and is read. -/
theorem next?_eq_some {state : FolderState} {event : WatchEvent}
    (isNext : state.next? = some event) :
    ∃ queue left, state.queue = event :: queue ∧ state.inBuffer = left + 1 := by
  rw [FolderState.next?] at isNext
  split at isNext
  · cases isNext
  · next someRead =>
    obtain ⟨queue, queued⟩ := List.head?_eq_some_iff.mp isNext
    obtain ⟨left, isLeft⟩ := Nat.exists_eq_succ_of_ne_zero someRead
    exact ⟨queue, left, queued, isLeft⟩

section Keeping

variable {rootOf : Nat → Option (List UInt8)} {disk : Contents → FileSystem}
  {watches : List WatchedFolder} {showHiddenFiles : Bool} {state : FolderState}

/-- A change on the disk, and what the responder does about it at once. -/
theorem FolderInvariant.change
    (invariant : FolderInvariant rootOf watches showHiddenFiles state) {wd : Int}
    {name : List UInt8} (proper : Proper wd name) {file : Option (Bool × Int)} {mask : WatchMask}
    (tells : match mask.comes with
      | some comes => file.isSome = comes
      | none => file.isSome = (state.contents wd name).isSome)
    (steady : mask.comes = some false → Steady watches wd name)
    {db : FsHandlesDb} {host : Nat → Bool} (sound : Sound rootOf watches db host)
    (same : ∀ watch ∈ watches, ∀ name', ¬ (watch.folder.watchDescriptor = wd ∧ name' = name) →
      (Listed db watch.folder.handle watch.folder.storageId name' ↔
        Listed state.db watch.folder.handle watch.folder.storageId name'))
    (right : mask.comes = none → ∀ watch ∈ watches, watch.folder.watchDescriptor = wd →
      (Listed db watch.folder.handle watch.folder.storageId name ↔
        Listed state.db watch.folder.handle watch.folder.storageId name) ∨
      file.isSome = true ∧ Listed db watch.folder.handle watch.folder.storageId name) :
    FolderInvariant rootOf watches showHiddenFiles
      { state.change wd name file mask with db, host } where
  running := invariant.running
  sound := sound
  follows := by
    intro watch member
    have before := invariant.follows watch member
    have present : ∀ name', ((state.change wd name file mask).contents
        watch.folder.watchDescriptor name').isSome =
          if watch.folder.watchDescriptor = wd ∧ name' = name then file.isSome
          else (state.contents watch.folder.watchDescriptor name').isSome :=
      isSome_change state wd name file mask watch.folder.watchDescriptor
    change Follows _ (fun name' => ((state.change wd name file mask).contents
      watch.folder.watchDescriptor name').isSome)
      (changes _ (queueUp state.inBuffer state.queue ⟨wd, mask, name⟩)) _
    rw [changes_queueUp]
    by_cases isWd : wd = watch.folder.watchDescriptor
    · subst isWd
      cases comes : mask.comes with
      | none =>
          rw [comes] at tells
          have sameFiles : (fun name' => ((state.change watch.folder.watchDescriptor name file
              mask).contents watch.folder.watchDescriptor name').isSome) =
                fun name' => (state.contents watch.folder.watchDescriptor name').isSome := by
            funext name'
            rw [present]
            split
            · next both => rw [both.2]; exact tells
            · rfl
          rw [changes_cons_of_none comes, changes_nil, List.append_nil, sameFiles]
          refine before.still (fun other differs => same watch member other fun both =>
            differs both.2) ?_
          exact (right comes watch member rfl).imp_right fun both =>
            ⟨(show file.isSome = _ from tells) ▸ both.1, both.2⟩
      | some arrives =>
          rw [comes] at tells
          have shows : changes watch.folder.watchDescriptor
              [⟨watch.folder.watchDescriptor, mask, name⟩] = [(name, arrives)] :=
            @changes_cons_of_some ⟨_, mask, name⟩ arrives comes []
          rw [shows]
          refine before.announce ?_ (fun other differs => ?_) fun other differs =>
            same watch member other fun both => differs both.2
          · exact (present name).trans ((if_pos ⟨rfl, rfl⟩).trans tells)
          · exact (present other).trans (if_neg fun both => differs both.2)
    · have sameFiles : (fun name' => ((state.change wd name file mask).contents
          watch.folder.watchDescriptor name').isSome) =
            fun name' => (state.contents watch.folder.watchDescriptor name').isSome := by
        funext name'
        rw [present, if_neg fun both => isWd both.1.symm]
      rw [changes_cons_of_ne isWd, changes_nil, List.append_nil, sameFiles]
      exact before.congr fun other => same watch member other fun both => isWd both.1.symm
  proper := by
    intro event member
    rcases mem_queueUp member with old | new
    · exact invariant.proper event old
    · rw [new]
      exact proper
  steady := by
    intro event member
    rcases mem_queueUp member with old | new
    · exact invariant.steady event old
    · rw [new]
      exact steady
  unnamed := by
    intro wd'
    change (Function.update state.contents wd (Function.update (state.contents wd) name file))
      wd' [] = none
    by_cases isWd : wd' = wd
    · rw [isWd, Function.update_self, Function.update_of_ne proper.2.1.nonempty.symm]
      exact invariant.unnamed wd
    · rw [Function.update_of_ne isWd]
      exact invariant.unnamed wd'
  buffered := invariant.buffered.queueUp _

/-- The thread reads. -/
theorem FolderInvariant.read
    (invariant : FolderInvariant rootOf watches showHiddenFiles state) :
    FolderInvariant rootOf watches showHiddenFiles state.read := by
  rw [FolderState.read]
  split
  · exact ⟨invariant.running, invariant.sound, invariant.follows, invariant.proper,
      invariant.steady, invariant.unnamed, buffered_fitting state.queue⟩
  · exact invariant

end Keeping

section Treating

variable {rootOf : Nat → Option (List UInt8)} {disk : Contents → FileSystem}
  {watches : List WatchedFolder} (onDisk : ∀ watch ∈ watches, OnDisk rootOf disk watch)
  (oneWatch : OneWatch watches) {showHiddenFiles : Bool} {state : FolderState}
  (invariant : FolderInvariant rootOf watches showHiddenFiles state)

include onDisk oneWatch invariant in
/-- The host sends a file to a watched folder. -/
theorem FolderInvariant.send {i : Nat} {name : List UInt8} (isName : FileName name)
    (short : name.length ≤ 256) (known : ∃ watch ∈ watches, watch.index = i)
    (few : state.db.nextHandle + 1 < 2 ^ 32) (objectsize : Int) :
    FolderInvariant rootOf watches showHiddenFiles (state.send i name objectsize) := by
  obtain ⟨watch, member, rfl⟩ := known
  have added : Added state.db (state.db.addEntry ⟨false, name, objectsize⟩ watch.folder.handle
      watch.folder.storageId).2 watch.folder.handle watch.folder.storageId [name] :=
    added_addEntry invariant.sound.paths (invariant.sound.folderKnown member) isName.ne_slash
  have sound : Sound rootOf watches
      (addObject ⟨false, name, objectsize⟩ watch.folder.handle watch.folder.storageId state.db
        state.host).1
      (addObject ⟨false, name, objectsize⟩ watch.folder.handle watch.folder.storageId state.db
        state.host).2 := invariant.sound.addObject onDisk member isName few
  have sameHost : Function.update state.host
      ((state.db.addEntry ⟨false, name, objectsize⟩ watch.folder.handle
        watch.folder.storageId).2.handleAt (state.db.addEntry ⟨false, name, objectsize⟩
          watch.folder.handle watch.folder.storageId).1) true =
      (addObject ⟨false, name, objectsize⟩ watch.folder.handle watch.folder.storageId state.db
        state.host).2 := by
    rw [addObject]
    cases found : state.db.searchEntryFor ⟨false, name, objectsize⟩ watch.folder.handle
        watch.folder.storageId with
    | none => rfl
    | some j =>
        obtain ⟨entry, here, selected⟩ := findEntry_eq_some found
        obtain ⟨sameName, isParent, isStorage, live⟩ := named_iff.mp selected
        have object := handle_ne_zero_of_named invariant.sound.paths here
          (sameName ▸ isName.ne_slash)
        have knows := (invariant.sound.informed watch member j entry here
          ⟨isParent, isStorage, handle_ne_parent invariant.sound.paths here object⟩).mpr live
        rw [FsHandlesDb.addEntry, found]
        dsimp only
        rw [handleAt, here]
        exact (congrArg _ knows.symm).trans (Function.update_eq_self ..)
  rw [addObject_fst, ← sameHost] at sound
  have same : ∀ other ∈ watches, ∀ name',
      ¬ (other.folder.watchDescriptor = watch.folder.watchDescriptor ∧ name' = name) →
      (Listed (state.db.addEntry ⟨false, name, objectsize⟩ watch.folder.handle
          watch.folder.storageId).2 other.folder.handle other.folder.storageId name' ↔
        Listed state.db other.folder.handle other.folder.storageId name') := by
    intro other member' name' apart
    rw [added.listed_iff, or_iff_left]
    rintro ⟨isName', isParent, isStorage⟩
    exact apart ⟨oneWatch other member' watch member isParent isStorage,
      List.mem_singleton.mp isName'⟩
  have proper : Proper watch.folder.watchDescriptor name :=
    ⟨(onDisk watch member).watched, isName, short⟩
  rw [FolderState.send, invariant.sound.watching.here watch member]
  dsimp only
  split
  · exact invariant.change proper rfl (by simp [WatchMask.comes]) sound same
      (by simp [WatchMask.comes])
  · next file isFile =>
    refine invariant.change proper (by rw [WatchMask.comes, isFile]; rfl)
      (by simp [WatchMask.comes]) sound same fun _ other member' _ => ?_
    by_cases place : other.folder.handle = watch.folder.handle ∧
        other.folder.storageId = watch.folder.storageId
    · exact .inr ⟨rfl, (added.listed_iff ..).mpr (.inr ⟨List.mem_singleton_self _, place⟩)⟩
    · refine .inl ((added.listed_iff ..).trans (or_iff_left fun new => place new.2))
  · exact invariant

include onDisk oneWatch invariant in
/-- The host deletes a file in a watched folder. -/
theorem FolderInvariant.delete {i : Nat} {name : List UInt8} (isName : FileName name)
    (short : name.length ≤ 256)
    (known : ∃ watch ∈ watches, watch.index = i ∧ Steady watches watch.folder.watchDescriptor name)
    (few : state.db.nextHandle + 1 < 2 ^ 32) :
    FolderInvariant rootOf watches showHiddenFiles (state.delete i name) := by
  obtain ⟨watch, member, rfl, steady⟩ := known
  rw [FolderState.delete, invariant.sound.watching.here watch member]
  dsimp only
  split
  · next j file found isFile =>
    have sound := invariant.sound.removeObject onDisk member isName steady few
    have listed : ∀ parent storageId name', Listed (removeObject name watch.folder.handle
        watch.folder.storageId state.db state.host).1 parent storageId name' ↔
          Listed state.db parent storageId name' ∧ ¬ (name' = name ∧
            parent = watch.folder.handle ∧ storageId = watch.folder.storageId) :=
      listed_removeObject invariant.sound.paths invariant.sound.unique isName.ne_slash
    rw [removeObject, found] at sound listed
    refine invariant.change ⟨(onDisk watch member).watched, isName, short⟩ rfl (fun _ => steady)
      sound (fun other member' name' apart => ?_) (by simp [WatchMask.comes])
    rw [listed]
    refine and_iff_left fun gone => apart ⟨?_, gone.1⟩
    exact oneWatch other member' watch member gone.2.1 gone.2.2
  · exact invariant

include oneWatch invariant in
/-- What the treatment of an arrival or a departure comes to. -/
theorem FolderInvariant.told {event : WatchEvent} {queue : List WatchEvent}
    (queued : state.queue = event :: queue)
    (few : state.db.nextHandle + state.db.entries.length + 1 < 2 ^ 32) {left offset : Nat}
    (buffered : Buffered queue left offset) {comes : Bool}
    (isComes : event.mask.comes = some comes) {round : FsEntry → Watcher → Option Watcher}
    (tells : Tells rootOf watches state.host event.wd comes event.name round) :
    ∃ after, Watcher.eachEntry round event.wd state.db.entryList
        ⟨state.db, state.fileinfo, []⟩ = some after ∧
      FolderInvariant rootOf watches showHiddenFiles { state with
        queue
        inBuffer := left
        offset
        db := after.db
        fileinfo := after.fileinfo
        host := hear state.host after.pushed } := by
  have head : event ∈ state.queue := by rw [queued]; exact List.mem_cons_self
  have later : ∀ {other : WatchEvent}, other ∈ queue → other ∈ state.queue := fun inQueue => by
    rw [queued]
    exact List.mem_cons_of_mem _ inQueue
  obtain ⟨isWatch, -, -⟩ := invariant.proper event head
  obtain ⟨_, represents, -⟩ := invariant.sound.paths.represents
  have linked := represents.wellFormed.linked
  have length : state.db.entryList.length = state.db.entries.length := by
    rw [linked, List.length_reverse, List.length_range]
  have visited : ∀ watch ∈ watches, (Visited watches state.db.entryList event.wd
      watch.folder.handle watch.folder.storageId ↔
        watch.folder.watchDescriptor = event.wd) := by
    intro watch member
    constructor
    · rintro ⟨other, member', -, isWd, isParent, isStorage⟩
      exact (oneWatch watch member other member' isParent isStorage).trans isWd
    · intro isWd
      refine ⟨watch, member, ?_, isWd, rfl, rfl⟩
      rw [linked, List.mem_reverse, List.mem_range]
      exact (List.getElem?_eq_some_iff.mp (invariant.sound.watching.here watch member)).1
  have start : Sound rootOf watches (⟨state.db, state.fileinfo, []⟩ : Watcher).db
      (hear state.host []) := invariant.sound
  obtain ⟨after, runs, sound, listed⟩ :=
    eachEntry_spec isWatch tells state.db.entryList start (by rw [length]; exact few)
  refine ⟨after, runs, invariant.running, sound, fun watch member => ?_,
    fun other inQueue => invariant.proper other (later inQueue),
    fun other inQueue => invariant.steady other (later inQueue), invariant.unnamed, buffered⟩
  have before := invariant.follows watch member
  by_cases isWd : event.wd = watch.folder.watchDescriptor
  · rw [queued, ← isWd, changes_cons_of_some isComes, isWd] at before
    have here := (visited watch member).mpr isWd.symm
    refine before.take (fun other differs _ => ?_) fun _ => ?_
    · rw [listed, ListedAfter]
      exact (or_iff_right fun both => differs both.1.1).trans
        (and_iff_right fun both => differs both.1)
    · rw [listed, ListedAfter]
      exact (or_iff_left fun both => both.1 ⟨rfl, here⟩).trans (and_iff_right ⟨rfl, here⟩)
  · rw [queued, changes_cons_of_ne isWd] at before
    have elsewhere : ¬ Visited watches state.db.entryList event.wd watch.folder.handle
        watch.folder.storageId := fun here => isWd ((visited watch member).mp here).symm
    refine before.congr fun name' => ?_
    rw [listed, ListedAfter]
    exact (or_iff_right fun both => elsewhere both.1.2).trans
      (and_iff_right fun both => elsewhere both.2)

include invariant in
/-- The thread passes over an event that the host can do without. -/
theorem FolderInvariant.pass {event : WatchEvent} (isNext : state.next? = some event)
    (dispensable : Dispensable showHiddenFiles watches state event) :
    FolderInvariant rootOf watches showHiddenFiles (state.advance event) := by
  obtain ⟨queue, left, queued, isLeft⟩ := next?_eq_some isNext
  have buffered := invariant.buffered
  rw [queued, isLeft] at buffered
  have later : ∀ {other : WatchEvent}, other ∈ state.queue.tail → other ∈ state.queue :=
    List.mem_of_mem_tail
  refine ⟨invariant.running, invariant.sound, fun watch member => ?_,
    fun other inQueue => invariant.proper other (later inQueue),
    fun other inQueue => invariant.steady other (later inQueue), invariant.unnamed, ?_⟩
  · change Follows _ _ (changes watch.folder.watchDescriptor state.queue.tail) _
    have before := invariant.follows watch member
    rw [queued, List.tail_cons]
    by_cases isWd : event.wd = watch.folder.watchDescriptor
    · cases comes : event.mask.comes with
      | none => rwa [queued, changes_cons_of_none comes] at before
      | some arrives =>
          rw [queued, ← isWd, changes_cons_of_some comes, isWd] at before
          refine before.skip fun shown silent => ?_
          rcases dispensable with quietly | hidden | followed | known
          · rw [quietly] at comes
            cases comes
          · rw [hidden] at shown
            cases shown
          · rw [queued, List.tail_cons, isWd] at followed
            exact absurd (outcome_changes_iff.mp silent) followed
          · have told := known watch member isWd.symm
            rwa [(invariant.sound.informed watch member).hostSees_iff, isWd] at told
    · rwa [queued, changes_cons_of_ne isWd] at before
  · change Buffered state.queue.tail (state.inBuffer - 1) (state.offset + event.size)
    rw [queued, isLeft]
    exact buffered.next.1

include onDisk oneWatch invariant in
/-- The thread treats an event, or passes over it. -/
theorem FolderInvariant.treat (few : state.db.nextHandle + state.db.entries.length + 1 < 2 ^ 32)
    (missesNothing : NothingMissed showHiddenFiles watches state .treat) :
    FolderInvariant rootOf watches showHiddenFiles (state.treat rootOf disk) := by
  rw [FolderState.treat]
  cases isNext : state.next? with
  | none => exact invariant
  | some event =>
      obtain ⟨dispensable, inTime⟩ := missesNothing event isNext
      obtain ⟨queue, left, queued, isLeft⟩ := next?_eq_some isNext
      have buffered := invariant.buffered
      rw [queued, isLeft] at buffered
      obtain ⟨buffered', within⟩ := buffered.next
      dsimp only
      split
      · next before =>
        have head : event ∈ state.queue := by rw [queued]; exact List.mem_cons_self
        obtain ⟨isWatch, isName, short⟩ := invariant.proper event head
        have advanced : state.advance event =
            { state with queue, inBuffer := left, offset := state.offset + event.size } := by
          rw [FolderState.advance, queued, isLeft]
          rfl
        have arrives : event.mask.comes = some true →
            Tells rootOf watches state.host event.wd true event.name
              (Watcher.createRound (disk state.contents) rootOf event.name) := by
          intro isArrival
          by_cases known : ∃ watch ∈ watches, watch.folder.watchDescriptor = event.wd
          · exact tells_createRound onDisk state.contents isName short
              (inTime (Nat.ne_of_lt before) isArrival known)
          · exact fun watch member isWd => absurd ⟨watch, member, isWd⟩ known
        have departs : event.mask.comes = some false →
            Tells rootOf watches state.host event.wd false event.name
              (Watcher.deleteRound (disk state.contents) rootOf event.name) :=
          fun isDeparture => tells_deleteRound onDisk state.contents isName short
            (invariant.steady event head isDeparture)
        have told := @FolderInvariant.told rootOf watches oneWatch showHiddenFiles state invariant
          event queue queued few left _ buffered'
        rw [Watcher.onEvent, advanced]
        cases mask : event.mask.comes with
        | some comes =>
            cases comes with
            | true =>
                obtain ⟨after, runs, invariant'⟩ := told mask (arrives mask)
                dsimp only
                rw [runs]
                exact invariant'
            | false =>
                obtain ⟨after, runs, invariant'⟩ := told mask (departs mask)
                dsimp only
                rw [runs]
                exact invariant'
        | none =>
            have start : Sound rootOf watches (⟨state.db, state.fileinfo, []⟩ : Watcher).db
                (hear state.host []) := invariant.sound
            obtain ⟨after, runs, sameDb, sameHost⟩ :=
              eachEntry_modify onDisk state.contents isWatch state.db.entryList start
            have silent : ∀ wd, changes wd state.queue = changes wd queue := fun wd => by
              rw [queued, changes_cons_of_none mask]
            dsimp only
            rw [runs]
            refine ⟨invariant.running, ?_, fun watch member => ?_, fun other inQueue => ?_,
              fun other inQueue => ?_, invariant.unnamed, buffered'⟩
            · dsimp only
              rw [sameDb, sameHost]
              exact invariant.sound
            · dsimp only
              rw [sameDb, ← silent]
              exact invariant.follows watch member
            · exact invariant.proper other (by rw [queued]; exact List.mem_cons_of_mem _ inQueue)
            · exact invariant.steady other (by rw [queued]; exact List.mem_cons_of_mem _ inQueue)
      · next beyond =>
        exact invariant.pass isNext (dispensable (Nat.le_antisymm within (Nat.le_of_not_lt beyond)))

end Treating

/-! ## A file that is gone -/

section Gone

variable {rootOf : Nat → Option (List UInt8)} {watches : List WatchedFolder} {host : Nat → Bool}

/-- What the host sees stays when objects are added. -/
theorem createRound_keeps {fs : FileSystem} {name name' : List UInt8} {entry : FsEntry}
    {watcher after : Watcher} (runs : watcher.createRound fs rootOf name entry = some after)
    {parent storageId : Nat}
    (sees : HostSees (hear host watcher.pushed) watcher.db parent storageId name') :
    HostSees (hear host after.pushed) after.db parent storageId name' := by
  obtain ⟨⟨known, fileinfo⟩, -, rfl⟩ := Option.map_eq_some_iff.mp runs
  obtain ⟨i, object, here, inFolder, knows, isName⟩ := sees
  dsimp only
  split
  · split
    · exact ⟨i, object, here, inFolder, knows, isName⟩
    · refine ⟨i, object, getElem?_addEntry_eq_some.mpr (.inl here), inFolder, ?_, isName⟩
      rw [hear_append]
      change Function.update (hear host watcher.pushed) _ true object.handle = true
      rw [Function.update_apply, knows, ite_self]
  · exact ⟨i, object, here, inFolder, knows, isName⟩

/-- A round for one name leaves what the host sees of another. -/
theorem eachEntry_keeps {fs : FileSystem} {name name' : List UInt8} {wd : Int} {links : List Nat}
    {watcher after : Watcher}
    (runs : watcher.eachEntry (Watcher.createRound fs rootOf name) wd links = some after)
    {parent storageId : Nat}
    (sees : HostSees (hear host watcher.pushed) watcher.db parent storageId name') :
    HostSees (hear host after.pushed) after.db parent storageId name' := by
  induction links generalizing watcher with
  | nil =>
      cases runs
      exact sees
  | cons i rest ih =>
      rw [Watcher.eachEntry] at runs
      split at runs
      · exact ih runs sees
      · obtain ⟨between, first, later⟩ := Option.bind_eq_some_iff.mp runs
        exact ih later (createRound_keeps first sees)

variable {disk : Contents → FileSystem}
  (onDisk : ∀ watch ∈ watches, OnDisk rootOf disk watch) {contents : Contents}

include onDisk in
/-- The host is told of an object without a name. -/
theorem createRound_gone {watch : WatchedFolder} (member : watch ∈ watches)
    {watcher after : Watcher}
    (sound : Sound rootOf watches watcher.db (hear host watcher.pushed)) {name : List UInt8}
    (isName : FileName name) (short : name.length ≤ 256)
    (gone : contents watch.folder.watchDescriptor name = none)
    (runs : watcher.createRound (disk contents) rootOf name watch.folder = some after) :
    HostSees (hear host after.pushed) after.db watch.folder.handle watch.folder.storageId [] := by
  obtain ⟨after', runs', sameDb, sameHost⟩ :=
    createRound_eq onDisk member contents sound isName short
  rw [runs] at runs'
  cases runs'
  rw [gone] at sameDb sameHost
  obtain ⟨_, represents, -⟩ := sound.paths.represents
  have missed : watcher.db.searchEntryFor (looked none name watcher.fileinfo)
      watch.folder.handle watch.folder.storageId = none := by
    refine (findEntry_eq_none_iff represents.wellFormed ..).mpr fun entry inDb => ?_
    by_contra selected
    obtain ⟨unnamed, -⟩ := named_iff.mp (Bool.not_eq_false _ ▸ selected)
    obtain ⟨i, here⟩ := List.mem_iff_getElem?.mp inDb
    have noName : entry.name = [] := unnamed
    have object := handle_ne_zero_of_named sound.paths here (by
      rw [noName]
      exact (List.cons_ne_nil _ _).symm)
    exact (sound.paths.placed.named i entry here object).nonempty noName
  have below := lt_nextHandle_of_folderKnown sound.paths (sound.folderKnown member)
  rw [addObject_fst] at sameDb
  rw [addObject_snd, if_pos missed] at sameHost
  refine ⟨watcher.db.entries.length, ⟨watcher.db.nextHandle, watch.folder.handle,
    watch.folder.storageId, [], watcher.fileinfo.isDirectory, false, 0, -1⟩, ?_, ?_, ?_, ?_⟩
  · rw [sameDb]
    exact getElem?_addEntry_eq_some.mpr (.inr ⟨missed, rfl, rfl⟩)
  · exact ⟨rfl, rfl, Nat.ne_of_gt below⟩
  · rw [sameHost]
    exact Function.update_self ..
  · rfl

include onDisk in
/-- Where a name that is gone is looked up, the host gets an object without a name. -/
theorem eachEntry_gone {wd : Int} (isWatch : wd ≠ -1) {name : List UInt8} (isName : FileName name)
    (short : name.length ≤ 256) (gone : contents wd name = none) {links : List Nat}
    {watch : WatchedFolder} (member : watch ∈ watches) (inside : watch.index ∈ links)
    (isWd : watch.folder.watchDescriptor = wd) {watcher after : Watcher}
    (sound : Sound rootOf watches watcher.db (hear host watcher.pushed))
    (runs : watcher.eachEntry (Watcher.createRound (disk contents) rootOf name) wd links =
      some after) :
    ∃ other ∈ watches, other.folder.watchDescriptor = wd ∧
      HostSees (hear host after.pushed) after.db other.folder.handle other.folder.storageId [] := by
  induction links with
  | nil => exact absurd inside List.not_mem_nil
  | cons i rest ih =>
      rw [Watcher.eachEntry] at runs
      cases here : (watcher.db.entries[i]?).filter (watchedBy wd) with
      | none =>
          rw [here] at runs
          refine ih ((List.mem_cons.mp inside).resolve_left ?_) runs
          rintro rfl
          rw [(sound.watching.watchedBy_iff isWatch).mpr ⟨watch, member, rfl, rfl, isWd⟩] at here
          cases here
      | some entry =>
          obtain ⟨other, member', -, rfl, isWd'⟩ :=
            (sound.watching.watchedBy_iff isWatch).mp here
          rw [here] at runs
          obtain ⟨between, first, later⟩ := Option.bind_eq_some_iff.mp runs
          exact ⟨other, member', isWd', eachEntry_keeps later
            (createRound_gone onDisk member' sound isName short (isWd' ▸ gone) first)⟩

end Gone

/-- What a run starts from: the host sees the watched folders as they are, and nothing is on its
way. -/
structure FolderStart (rootOf : Nat → Option (List UInt8)) (watches : List WatchedFolder)
    (showHiddenFiles : Bool) (state : FolderState) : Prop where
  running : state.running = true
  silent : state.queue = []
  unread : state.inBuffer = 0 ∧ state.offset = 0
  sound : Sound rootOf watches state.db state.host
  listed : ∀ watch ∈ watches, ∀ name, listable showHiddenFiles name = true →
    (Listed state.db watch.folder.handle watch.folder.storageId name ↔
      (state.contents watch.folder.watchDescriptor name).isSome = true)
  unnamed : ∀ wd, state.contents wd [] = none

section Runs

variable {rootOf : Nat → Option (List UInt8)} {disk : Contents → FileSystem}
  {watches : List WatchedFolder} (onDisk : ∀ watch ∈ watches, OnDisk rootOf disk watch)
  (oneWatch : OneWatch watches) {showHiddenFiles : Bool}

/-- The start keeps what the steps keep. -/
theorem FolderStart.invariant {state : FolderState}
    (start : FolderStart rootOf watches showHiddenFiles state) :
    FolderInvariant rootOf watches showHiddenFiles state where
  running := start.running
  sound := start.sound
  follows := fun watch member => by
    rw [start.silent]
    exact ⟨(by rintro _ _ ⟨⟩), fun name shown _ => start.listed watch member name shown⟩
  proper := by
    rw [start.silent]
    exact fun event member => absurd member List.not_mem_nil
  steady := by
    rw [start.silent]
    exact fun event member => absurd member List.not_mem_nil
  unnamed := start.unnamed
  buffered := by
    rw [start.silent, start.unread.1, start.unread.2]
    exact ⟨Nat.le_refl 0, Nat.zero_le _⟩

include onDisk oneWatch in
/-- Every step that is in order and misses nothing keeps the invariant. -/
theorem FolderInvariant.step {state : FolderState} {step : FolderStep}
    (invariant : FolderInvariant rootOf watches showHiddenFiles state)
    (order : FolderOrder watches state step)
    (missesNothing : NothingMissed showHiddenFiles watches state step) :
    FolderInvariant rootOf watches showHiddenFiles (folderStep rootOf disk state step) := by
  cases step with
  | create wd name file moved =>
      refine invariant.change order ?_ ?_ invariant.sound (fun _ _ _ _ => Iff.rfl)
        fun _ _ _ _ => .inl Iff.rfl
      · cases moved <;> rfl
      · cases moved <;> exact fun gone => absurd gone (by decide)
  | modify wd name size =>
      refine invariant.change order ?_ (fun gone => absurd gone (by decide)) invariant.sound
        (fun _ _ _ _ => Iff.rfl) fun _ _ _ _ => .inl Iff.rfl
      exact Option.isSome_map
  | remove wd name moved =>
      refine invariant.change order.1 ?_ (fun _ => order.2) invariant.sound
        (fun _ _ _ _ => Iff.rfl) fun _ _ _ _ => .inl Iff.rfl
      cases moved <;> rfl
  | send i name objectsize =>
      obtain ⟨isName, short, known, few⟩ := order
      exact invariant.send onDisk oneWatch isName short known few objectsize
  | delete i name =>
      obtain ⟨isName, short, known, few⟩ := order
      exact invariant.delete onDisk oneWatch isName short known few
  | read => exact invariant.read
  | treat => exact invariant.treat onDisk oneWatch order missesNothing

include onDisk in
/-- After an event of a file that is gone, the host sees an object that is not there. -/
theorem FolderInvariant.misled {state : FolderState}
    (invariant : FolderInvariant rootOf watches showHiddenFiles state) {event : WatchEvent}
    (isNext : state.next? = some event) (before : state.offset + event.size < inotifyRdBufSize)
    (late : ¬ FoundInTime watches state event) :
    ¬ HostFollows showHiddenFiles watches (state.treat rootOf disk) := by
  simp only [FoundInTime, not_forall] at late
  obtain ⟨arrives, ⟨watch, member, isWd⟩, gone⟩ := late
  obtain ⟨queue, left, queued, -⟩ := next?_eq_some isNext
  have head : event ∈ state.queue := by rw [queued]; exact List.mem_cons_self
  obtain ⟨isWatch, isName, short⟩ := invariant.proper event head
  have absent : state.contents event.wd event.name = none := by
    rwa [Bool.not_eq_true, Option.isSome_eq_false_iff, Option.isNone_iff_eq_none] at gone
  rw [FolderState.treat, isNext]
  dsimp only
  rw [if_pos before, Watcher.onEvent, arrives]
  dsimp only
  split
  · exact fun follows => absurd follows.1 Bool.false_ne_true
  · next after runs =>
    obtain ⟨_, represents, -⟩ := invariant.sound.paths.represents
    have inside : watch.index ∈ state.db.entryList := by
      rw [represents.wellFormed.linked, List.mem_reverse, List.mem_range]
      exact (List.getElem?_eq_some_iff.mp (invariant.sound.watching.here watch member)).1
    have start : Sound rootOf watches (⟨state.db, state.fileinfo, []⟩ : Watcher).db
        (hear state.host []) := invariant.sound
    obtain ⟨other, member', isWd', sees⟩ :=
      eachEntry_gone onDisk isWatch isName short absent member inside isWd start runs
    rintro ⟨-, follows⟩
    have shown : listable showHiddenFiles [] = true := by cases showHiddenFiles <;> rfl
    have quiet : Quiet state.queue.tail other.folder.watchDescriptor [] :=
      fun event' inQueue _ unnamed => absurd unnamed
        (invariant.proper event' (List.mem_of_mem_tail inQueue)).2.1.nonempty
    have there := (follows other member' [] shown quiet).mp sees
    change (state.contents _ []).isSome = true at there
    rw [invariant.unnamed] at there
    cases there

/-- After an event that is passed over and that the host needed, it is wrong about the file. -/
theorem not_hostFollows_of_passed {state : FolderState} {event : WatchEvent}
    (isNext : state.next? = some event) (full : state.offset + event.size = inotifyRdBufSize)
    (needed : ¬ Dispensable showHiddenFiles watches state event) :
    ¬ HostFollows showHiddenFiles watches (state.treat rootOf disk) := by
  simp only [Dispensable, not_or, not_forall, not_not] at needed
  obtain ⟨-, shown, quiet, watch, member, isWd, wrong⟩ := needed
  rw [FolderState.treat, isNext]
  dsimp only
  rw [if_neg (by omega)]
  rintro ⟨-, follows⟩
  rw [Bool.not_eq_false] at shown
  have right := follows watch member event.name shown (isWd ▸ quiet)
  rw [isWd] at right
  exact wrong right

include onDisk oneWatch in
/-- In every order in which files come and go and the thread reads and treats the events, the host
sees the files of the watched folders, but for those that an event is on its way about, exactly if
each file whose arrival the thread treats is still there and each event that fills the thread's
buffer to its end is one the host can do without. -/
theorem host_follows_folders_iff {initial : FolderState}
    (start : FolderStart rootOf watches showHiddenFiles initial) {steps : List FolderStep}
    (order : (folderMachine rootOf disk initial).StepsMeet (FolderOrder watches) initial steps) :
    (folderMachine rootOf disk initial).Always (HostFollows showHiddenFiles watches) initial
        steps ↔
      (folderMachine rootOf disk initial).StepsMeet (NothingMissed showHiddenFiles watches)
        initial steps := by
  refine Machine.always_iff_stepsMeet (FolderInvariant rootOf watches showHiddenFiles)
    (fun _ invariant => invariant.hostFollows) ?_ ?_ start.invariant order
  · exact fun state step invariant order missesNothing =>
      invariant.step onDisk oneWatch order missesNothing
  · intro state step invariant _ misses
    cases step with
    | treat =>
        simp only [NothingMissed, not_forall] at misses
        obtain ⟨event, isNext, misses⟩ := misses
        obtain ⟨queue, left, queued, isLeft⟩ := next?_eq_some isNext
        have buffered := invariant.buffered
        rw [queued, isLeft] at buffered
        have within := buffered.next.2
        by_cases full : state.offset + event.size = inotifyRdBufSize
        · exact not_hostFollows_of_passed isNext full fun dispensable =>
            misses ⟨fun _ => dispensable, fun notFull => absurd full notFull⟩
        · exact invariant.misled onDisk isNext (by omega) fun inTime =>
            misses ⟨fun isFull => absurd isFull full, fun _ => inTime⟩
    | create | modify | remove | send | delete | read => exact absurd trivial misses

end Runs

/-- The top of a storage, with a watch. -/
def bookShelf : FsHandlesDb := watchFolder (some 0) 1 (allocRootEntry 0x10001 initFsDb)

/-- The watch on the top of the storage. -/
def bookWatch : WatchedFolder :=
  ⟨0, { rootEntry 0x10001 with watchDescriptor := 1 },
    [{ rootEntry 0x10001 with watchDescriptor := 1 }], bookPath⟩

/-- A file system with the contents of the one watched directory. -/
def shelfDisk (contents : Contents) : FileSystem where
  opendir := fun _ => none
  stat path :=
    if (bookPath ++ [slash]).isPrefixOf path then contents 1 (path.drop 3) else none
  realpath := fun _ => .path bookPath

/-- An empty directory, with nothing queued and nothing read. -/
def emptyShelf : FolderState where
  contents := fun _ _ => none
  queue := []
  inBuffer := 0
  offset := 0
  db := bookShelf
  fileinfo := ⟨false, [], 0⟩
  host := fun _ => false
  running := true

/-- The top is the only entry. -/
theorem mem_bookShelf {i : Nat} {entry : FsEntry} (here : bookShelf.entries[i]? = some entry) :
    i = 0 ∧ entry = bookWatch.folder := by
  have entries : bookShelf.entries = [bookWatch.folder] := rfl
  rw [entries] at here
  exact ⟨Nat.lt_one_iff.mp (List.getElem?_eq_some_iff.mp here).1,
    List.mem_singleton.mp (List.mem_of_getElem? here)⟩

/-- The top of the storage has a path. -/
theorem pathInvariant_bookShelf :
    PathInvariant ⟨bookShelf, rootedBy fun _ => some bookPath⟩ := by
  have mounted : PathInvariant (handleStep (handleMachine fun _ => true).initial
      (.mountRoot 0x10001)) :=
    (pathInvariant_initial fun _ => true).step ⟨⟨trivial, by decide⟩, trivial⟩
  exact mounted.watchFolder (some 0) 1

/-- The empty directory is a start. -/
theorem folderStart_emptyShelf :
    FolderStart (fun _ => some bookPath) [bookWatch] false emptyShelf where
  running := rfl
  silent := rfl
  unread := ⟨rfl, rfl⟩
  sound :=
    { paths := pathInvariant_bookShelf
      unique := ((namesInvariant_initial fun _ => true).unique.allocRootEntry
        0x10001).watchFolder (some 0) 1
      watching :=
        { here := List.forall_mem_singleton.mpr rfl
          live := List.forall_mem_singleton.mpr rfl
          walk := List.forall_mem_singleton.mpr rfl
          all := fun i entry here _ _ =>
            ⟨bookWatch, List.mem_singleton_self _, (mem_bookShelf here).1.symm⟩ }
      informed := List.forall_mem_singleton.mpr (by
        rintro i entry here ⟨-, -, differs⟩
        rw [(mem_bookShelf here).2] at differs
        exact absurd rfl differs) }
  listed := List.forall_mem_singleton.mpr fun name _ => by
    refine iff_of_false ?_ (by simp [emptyShelf])
    rintro ⟨i, entry, here, child, -⟩
    rw [(mem_bookShelf here).2] at child
    exact absurd child (by decide)
  unnamed := fun _ => rfl

/-- The watched directory is on the disk. -/
theorem onDisk_book : OnDisk (fun _ => some bookPath) shelfDisk bookWatch where
  watched := by decide
  tops := by
    intro top isTop
    cases isTop
    rfl
  path := ⟨bookPath, rfl, fun _ => rfl⟩
  nonempty := by decide
  stat := fun _ _ _ => rfl

/-- A book comes, its event is read and treated: the host follows, and nothing is missed. -/
theorem host_follows_folders_book :
    (folderMachine (fun _ => some bookPath) shelfDisk emptyShelf).Always
        (HostFollows false [bookWatch]) emptyShelf
        [.create 1 "a".toUTF8.toList (false, 7) false, .read, .treat] ↔
      (folderMachine (fun _ => some bookPath) shelfDisk emptyShelf).StepsMeet
        (NothingMissed false [bookWatch]) emptyShelf
        [.create 1 "a".toUTF8.toList (false, 7) false, .read, .treat] :=
  host_follows_folders_iff (List.forall_mem_singleton.mpr onDisk_book)
    (List.forall_mem_singleton.mpr (List.forall_mem_singleton.mpr fun _ _ => rfl))
    folderStart_emptyShelf
    ⟨⟨by decide, fileName_a, by decide +kernel⟩, trivial, show 1 + 1 + 1 < 2 ^ 32 by decide,
      trivial⟩

end Nookobo.Mtp
