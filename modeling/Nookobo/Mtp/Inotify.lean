import Nookobo.Mtp.Folders

/-!
# The thread that watches folders

`inotify.c`. `mtp_op_GetObjectHandles` sets a watch on each folder that the host
lists. A thread reads the events of the watches, as many at a time as its buffer
holds, looks at the file each is about, changes the database and pushes an event
for the host. A watch can have several entries, which are treated one after the
other. An event that ends at the very end of the buffer is passed over.
-/

namespace Nookobo.Mtp

open FsHandlesDb

/-! ## Events -/

/-- What `inotify_handler_addwatch` asks for. -/
inductive WatchMask where
  | create
  | modify
  | delete
  | movedFrom
  | movedTo
deriving DecidableEq, Repr

/-- `struct inotify_event`, with a name. -/
structure WatchEvent where
  wd : Int
  mask : WatchMask
  name : List UInt8
deriving DecidableEq, Repr

/-- `INOTIFY_RD_BUF_SIZE` -/
def inotifyRdBufSize : Nat := 32 * 1024

/-- What the event takes in the buffer: the 16 bytes of the structure and the name, which the
kernel ends with a zero and fills up to a multiple of 16. -/
def WatchEvent.size (event : WatchEvent) : Nat := 16 + (event.name.length + 16) / 16 * 16

/-- How many events a `read` takes into so many bytes: as many as are whole. -/
def fitting : Nat → List WatchEvent → Nat
  | _, [] => 0
  | room, event :: rest =>
      if event.size ≤ room then fitting (room - event.size) rest + 1 else 0

/-- What is on its way after an event. The kernel drops one that says the same as the last that
nobody has read: another change of the contents, as a name comes and goes in turn, and each move
has a number of its own. -/
def queueUp (inBuffer : Nat) (queue : List WatchEvent) (event : WatchEvent) : List WatchEvent :=
  if event.mask = .modify ∧ inBuffer < queue.length ∧ queue.getLast? = some event then queue
  else queue ++ [event]

/-- The events of the three branches: the name is there now, is gone now, or neither. -/
def WatchMask.comes : WatchMask → Option Bool
  | .create | .movedTo => some true
  | .delete | .movedFrom => some false
  | .modify => none

/-- `MTP_EVENT_OBJECT_ADDED` and its siblings, with the handle. -/
inductive ObjectEvent where
  | added (handle : Nat)
  | infoChanged (handle : Nat)
  | removed (handle : Nat)
deriving DecidableEq, Repr

/-- The database, the `fileinfo` that the thread keeps from event to event, and what it has
pushed. -/
structure Watcher where
  db : FsHandlesDb
  fileinfo : FileFoundInfo
  pushed : List ObjectEvent

/-! ## The thread -/

section Thread

variable (fs : FileSystem) (rootOf : Nat → Option (List UInt8))

/-- `get_file_info` of an entry, with what is in `fileinfo` afterwards. What `fs_entry_stat`
returns is not looked at: where it fails, the name is empty. `none` is a crash in
`build_full_path`. -/
def getFileInfo (db : FsHandlesDb) (name : List UInt8) (entry : FsEntry)
    (fileinfo : FileFoundInfo) (deleted : Bool) : Option (Bool × FileFoundInfo) :=
  match buildFullPath (rootedBy rootOf) db fs.realpath (rootOf entry.storageId) entry with
  | some (.path path) =>
      if deleted then some (true, ⟨false, name.take 256, 0⟩)
      else
        some (true, (fsEntryStat fs (path ++ slash :: name)).getD
          { fileinfo with filename := [], size := 0 })
  | some .null => some (false, fileinfo)
  | _ => none

namespace Watcher

/-- A round for IN_CREATE or IN_MOVED_TO. -/
def createRound (name : List UInt8) (entry : FsEntry) (watcher : Watcher) : Option Watcher :=
  (getFileInfo fs rootOf watcher.db name entry watcher.fileinfo false).map
    fun (known, fileinfo) =>
      if known then
        match watcher.db.searchEntryFor fileinfo entry.handle entry.storageId with
        | some _ => { watcher with fileinfo }
        | none =>
            let (i, db) := watcher.db.addEntry fileinfo entry.handle entry.storageId
            { db, fileinfo, pushed := watcher.pushed ++ [.added (db.handleAt i)] }
      else { watcher with fileinfo }

/-- A round for IN_MODIFY. -/
def modifyRound (name : List UInt8) (entry : FsEntry) (watcher : Watcher) : Option Watcher :=
  (getFileInfo fs rootOf watcher.db name entry watcher.fileinfo true).map
    fun (known, fileinfo) =>
      if known then
        match watcher.db.searchEntryFor fileinfo entry.handle entry.storageId with
        | some i =>
            { watcher with
              fileinfo
              pushed := watcher.pushed ++ [.infoChanged (watcher.db.handleAt i)] }
        | none => { watcher with fileinfo }
      else { watcher with fileinfo }

/-- A round for IN_DELETE or IN_MOVED_FROM. -/
def deleteRound (name : List UInt8) (entry : FsEntry) (watcher : Watcher) : Option Watcher :=
  (getFileInfo fs rootOf watcher.db name entry watcher.fileinfo true).map
    fun (known, fileinfo) =>
      if known then
        match watcher.db.searchEntryFor fileinfo entry.handle entry.storageId with
        | some i =>
            { db := watcher.db.markDeleted i
              fileinfo
              pushed := watcher.pushed ++ [.removed (watcher.db.handleAt i)] }
        | none => { watcher with fileinfo }
      else { watcher with fileinfo }

/-- `get_entry_by_wd` again and again, along the list. -/
def eachEntry (round : FsEntry → Watcher → Option Watcher) (wd : Int) :
    List Nat → Watcher → Option Watcher
  | [], watcher => some watcher
  | i :: rest, watcher =>
      match (watcher.db.entries[i]?).filter (watchedBy wd) with
      | none => eachEntry round wd rest watcher
      | some entry => (round entry watcher).bind (eachEntry round wd rest)

/-- What `inotify_thread` does with an event that it does not pass over. -/
def onEvent (event : WatchEvent) (watcher : Watcher) : Option Watcher :=
  let round :=
    match event.mask.comes with
    | some true => createRound fs rootOf event.name
    | some false => deleteRound fs rootOf event.name
    | none => modifyRound fs rootOf event.name
  watcher.eachEntry round event.wd watcher.db.entryList

end Watcher

end Thread

/-- The events in the buffer of the thread, the first ones of those on their way, and how far it
has come with them: they end within the buffer. -/
structure Buffered (queue : List WatchEvent) (inBuffer offset : Nat) : Prop where
  inside : inBuffer ≤ queue.length
  room : offset + ((queue.take inBuffer).map WatchEvent.size).sum ≤ inotifyRdBufSize

/-- As many events are read as fit the room. -/
theorem fitting_spec (room : Nat) (queue : List WatchEvent) :
    fitting room queue ≤ queue.length ∧
      ((queue.take (fitting room queue)).map WatchEvent.size).sum ≤ room := by
  induction queue generalizing room with
  | nil => exact ⟨Nat.le_refl 0, Nat.zero_le room⟩
  | cons event rest ih =>
      rw [fitting]
      split
      · next fits =>
        obtain ⟨inside, within⟩ := ih (room - event.size)
        rw [List.take_succ_cons, List.map_cons, List.sum_cons, List.length_cons]
        exact ⟨Nat.succ_le_succ inside, by omega⟩
      · exact ⟨Nat.zero_le _, Nat.zero_le _⟩

/-- A `read` into the whole buffer. -/
theorem buffered_fitting (queue : List WatchEvent) :
    Buffered queue (fitting inotifyRdBufSize queue) 0 := by
  obtain ⟨inside, within⟩ := fitting_spec inotifyRdBufSize queue
  exact ⟨inside, by rwa [Nat.zero_add]⟩

/-- An event is behind the others, or is one of no coming or going that the last one says. -/
theorem queueUp_cases (inBuffer : Nat) (queue : List WatchEvent) (event : WatchEvent) :
    queueUp inBuffer queue event = queue ++ [event] ∨
      queueUp inBuffer queue event = queue ∧ event.mask.comes = none := by
  rw [queueUp]
  split
  · next same =>
    refine .inr ⟨rfl, ?_⟩
    rw [same.1]
    rfl
  · exact .inl rfl

/-- What is on its way was, or is the event. -/
theorem mem_queueUp {inBuffer : Nat} {queue : List WatchEvent} {event other : WatchEvent}
    (member : other ∈ queueUp inBuffer queue event) : other ∈ queue ∨ other = event := by
  rcases queueUp_cases inBuffer queue event with behind | ⟨same, -⟩
  · rw [behind] at member
    exact (List.mem_append.mp member).imp_right List.mem_singleton.mp
  · exact .inl (same ▸ member)

/-- More events come behind those that are read. -/
theorem Buffered.queueUp {queue : List WatchEvent} {inBuffer offset : Nat}
    (buffered : Buffered queue inBuffer offset) (event : WatchEvent) :
    Buffered (queueUp inBuffer queue event) inBuffer offset := by
  rcases queueUp_cases inBuffer queue event with behind | ⟨same, -⟩
  · rw [behind]
    refine ⟨?_, ?_⟩
    · rw [List.length_append]
      exact Nat.le_add_right_of_le buffered.inside
    · rw [List.take_append_of_le_length buffered.inside]
      exact buffered.room
  · rwa [same]

/-- The thread goes on to the next event, which ends within the buffer too. -/
theorem Buffered.next {event : WatchEvent} {queue : List WatchEvent} {left offset : Nat}
    (buffered : Buffered (event :: queue) (left + 1) offset) :
    Buffered queue left (offset + event.size) ∧ offset + event.size ≤ inotifyRdBufSize := by
  have inside := buffered.inside
  have room := buffered.room
  rw [List.length_cons] at inside
  rw [List.take_succ_cons, List.map_cons, List.sum_cons] at room
  exact ⟨⟨by omega, by omega⟩, by omega⟩

/-- What the host knows of the objects when it has heard the events. -/
def hear (host : Nat → Bool) (events : List ObjectEvent) : Nat → Bool :=
  events.foldl (fun host event =>
    match event with
    | .added handle => Function.update host handle true
    | .infoChanged _ => host
    | .removed handle => Function.update host handle false) host

end Nookobo.Mtp
