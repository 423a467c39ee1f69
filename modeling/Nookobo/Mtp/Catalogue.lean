import Nookobo.Mtp.Handles
import Nookobo.Mtp.Sanitize
import Nookobo.Semantics.Registry
import Nookobo.Semantics.Run

/-!
# The handle database as a catalogue

What the database is for: the host knows every object by a handle that was given
to it once. The abstract catalogue is a `Registry` of objects, and
`Represents` says that a database stands for one. Every request of a session is
simulated, so after any run a lookup in the hash tables answers as the
catalogue does.
-/

namespace Nookobo.Mtp

open Nookobo.Semantics FsHandlesDb

/-! ## The requests of a session -/

/-- The changes of the database in one session, by the operations of the host, by the inotify
thread and by the message queue, each taken as one step. The source makes `mountRoot`, `add`,
`discard`, `resize` and `unmount` under `inotify_mutex`; `setObjectPropValue`, `CloseSession` and
the messages that add or remove a storage take no lock, so that a run in which one of these falls
into the middle of another change is not among the runs here. -/
inductive Request where
  /-- `alloc_root_entry`: a session is opened, or a store is mounted. -/
  | mountRoot (storageId : Nat)
  /-- `add_entry` -/
  | add (fileinfo : FileFoundInfo) (parent storageId : Nat)
  /-- The entry with a handle is marked deleted. -/
  | discard (handle : Nat)
  /-- `setObjectPropValue` -/
  | rename (handle : Nat) (newFilename : List UInt8)
  /-- The size of the entry with a handle is read again. -/
  | resize (handle : Nat) (size : Int)
  /-- `umount_store` -/
  | unmount (storageId : Nat)
  /-- A storage gets a root path, or loses it. -/
  | setRooted (storageId : Nat) (present : Bool)

/-- The database, and the storages that have a root. -/
structure HandleState where
  db : FsHandlesDb
  rooted : Nat → Bool

/-- A change of the entry that `get_entry_by_handle` finds. -/
def HandleState.onHandle (state : HandleState) (handle : Nat)
    (change : Nat → FsHandlesDb → FsHandlesDb) : HandleState :=
  match state.db.getEntryByHandle state.rooted handle with
  | none => state
  | some i => { state with db := change i state.db }

/-- What a request does to the database. -/
def handleStep (state : HandleState) : Request → HandleState
  | .mountRoot storageId => { state with db := state.db.allocRootEntry storageId }
  | .add fileinfo parent storageId =>
      { state with db := (state.db.addEntry fileinfo parent storageId).2 }
  | .discard handle => state.onHandle handle markDeleted
  | .rename handle newFilename => state.onHandle handle fun i db => db.renameEntry i newFilename
  | .resize handle size =>
      state.onHandle handle fun i => updateEntry i fun entry => { entry with size := size }
  | .unmount storageId => { state with db := state.db.umountStore storageId }
  | .setRooted storageId present =>
      { state with rooted := Function.update state.rooted storageId present }

/-- A session, from `init_fs_db` on. -/
def handleMachine (rooted : Nat → Bool) : Machine HandleState Request where
  initial := ⟨initFsDb, rooted⟩
  step := handleStep

/-- A name that a file can have. -/
structure FileName (name : List UInt8) : Prop where
  nonempty : name ≠ []
  plain : slash ∉ name
  notDot : name ≠ [dot]
  notDots : name ≠ [dot, dot]

/-- An object that is added or renamed gets a name that a file can have: `readdir` and
`sanitize_name` give no other. What is excluded is the object without a name that the inotify
thread adds when the file of an event is gone (`get_file_info` ignores the failed stat), and the
renaming of a root folder: the file system refuses to move it into itself. -/
def Request.Proper : Request → Prop
  | .add fileinfo _ _ => FileName fileinfo.filename
  | .rename handle newFilename => handle ≠ 0 ∧ FileName newFilename
  | _ => True

/-- The name of a file is not that of the root. -/
theorem FileName.ne_slash {name : List UInt8} (isName : FileName name) : name ≠ [slash] :=
  fun same => isName.plain (same ▸ List.mem_singleton_self slash)

/-- A safe name is the name of a file. -/
theorem SafeName.fileName {name : List UInt8} (safe : SafeName name) : FileName name where
  nonempty := safe.nonempty
  plain := fun member => absurd (safe.allowed slash member (by decide)) (by decide)
  notDot := fun same => (safe.back dot (by rw [same]; rfl)).1 rfl
  notDots := fun same => (safe.back dot (by rw [same]; rfl)).1 rfl

/-! ## The catalogue -/

/-- What the host is told about an object. -/
structure CatalogueObject where
  parent : Nat
  storageId : Nat
  name : List UInt8
  isDir : Bool
  size : Int

/-- The object an entry stands for. -/
def objectOf (entry : FsEntry) : CatalogueObject :=
  ⟨entry.parent, entry.storageId, entry.name, entry.isDir, entry.size⟩

/-- An object of the storage with this name in this folder. -/
def CatalogueObject.isAt (name : List UInt8) (parent storageId : Nat) (object : CatalogueObject) :
    Prop :=
  object.name = name ∧ object.parent = parent ∧ object.storageId = storageId

/-- The registry of objects, and the storages that have a root. -/
structure CatalogueState where
  registry : Registry CatalogueObject
  rooted : Nat → Bool

/-- A change of the object with a handle, when its storage has a root. -/
def CatalogueState.onHandle (state : CatalogueState) (handle : Nat)
    (change : CatalogueObject → Option CatalogueObject) : CatalogueState :=
  { state with
    registry := state.registry.revise fun number object =>
      if number = handle ∧ state.rooted object.storageId = true then change object
      else some object }

open Classical in
/-- What a request means. -/
noncomputable def catalogueStep (state : CatalogueState) : Request → CatalogueState
  | .mountRoot _ => state
  | .add fileinfo parent storageId =>
      if ∃ handle object, state.registry.object handle = some object ∧
          object.isAt fileinfo.filename parent storageId then state
      else
        { state with
          registry := state.registry.issue
            ⟨parent, storageId, fileinfo.filename, fileinfo.isDirectory, fileinfo.size⟩ }
  | .discard handle => state.onHandle handle fun _ => none
  | .rename handle newFilename =>
      state.onHandle handle fun object => some { object with name := newFilename }
  | .resize handle size => state.onHandle handle fun object => some { object with size := size }
  | .unmount storageId =>
      { state with
        registry := state.registry.revise fun _ object =>
          if object.storageId = storageId then none else some object }
  | .setRooted storageId present =>
      { state with rooted := Function.update state.rooted storageId present }

/-- The registry from the start of a session, over any requests. -/
noncomputable def catalogueMachine (rooted : Nat → Bool) : Machine CatalogueState Request where
  initial := ⟨Registry.empty 1, rooted⟩
  step := catalogueStep

/-! ## The representation -/

/-- The object of an entry that is not deleted. -/
def visible (entry : FsEntry) : Option CatalogueObject :=
  if entry.isDeleted then none else some (objectOf entry)

/-- The database stands for the registry: its entries that are not deleted are the objects. The
root folders, with handle 0, are apart. -/
structure Represents (db : FsHandlesDb) (registry : Registry CatalogueObject) : Prop where
  wellFormed : WellFormed db
  next : registry.next = db.nextHandle
  positive : 0 < db.nextHandle
  given : ∀ (i : Nat) (entry : FsEntry), db.entries[i]? = some entry → entry.handle < db.nextHandle
  unique : ∀ (i j : Nat) (first second : FsEntry), db.entries[i]? = some first →
    db.entries[j]? = some second → first.handle = second.handle → first.handle ≠ 0 → i = j
  object : ∀ handle object, registry.object handle = some object ↔
    handle ≠ 0 ∧ ∃ (i : Nat) (entry : FsEntry), db.entries[i]? = some entry ∧
      entry.handle = handle ∧ visible entry = some object
  roots : ∀ (i : Nat) (entry : FsEntry), db.entries[i]? = some entry → entry.handle = 0 →
    entry.name = [slash]

/-- An empty database represents an empty registry. -/
theorem represents_initFsDb : Represents initFsDb (Registry.empty 1) where
  wellFormed := wellFormed_initFsDb
  next := rfl
  positive := Nat.one_pos
  given := by intro i entry here; cases here
  unique := by intro i j first second here; cases here
  object := by
    intro handle object
    constructor
    · intro here
      cases here
    · rintro ⟨-, i, entry, here, -⟩
      cases here
  roots := by intro i entry here; cases here

/-- The entries after a new one is linked. -/
theorem getElem?_linkEntry_eq_some {db : FsHandlesDb} {entry other : FsEntry} {i : Nat} :
    (db.linkEntry entry).entries[i]? = some other ↔
      db.entries[i]? = some other ∨ (i = db.entries.length ∧ entry = other) := by
  rw [getElem?_linkEntry]
  split
  · next old => exact ⟨.inl, fun here => here.resolve_right fun new => absurd old (by omega)⟩
  · next new =>
    rw [List.getElem?_eq_none (by omega)]
    split
    · next last => simp [last]
    · next beyond => simp [beyond]

/-- A root folder has the handle 0, so it is no object of the registry. -/
theorem Represents.allocRootEntry {db : FsHandlesDb} {registry : Registry CatalogueObject}
    (represents : Represents db registry) (storageId : Nat) :
    Represents (db.allocRootEntry storageId) registry where
  wellFormed := represents.wellFormed.linkEntry _
  next := represents.next
  positive := represents.positive
  given := by
    intro i entry here
    rcases getElem?_linkEntry_eq_some.mp here with old | ⟨-, rfl⟩
    · exact represents.given i entry old
    · exact represents.positive
  unique := by
    intro i j first second one two same nonzero
    rcases getElem?_linkEntry_eq_some.mp one with old | ⟨-, rfl⟩
    · rcases getElem?_linkEntry_eq_some.mp two with old' | ⟨-, rfl⟩
      · exact represents.unique i j first second old old' same nonzero
      · exact absurd same nonzero
    · exact absurd rfl nonzero
  object := by
    intro handle object
    rw [represents.object]
    refine and_congr_right fun nonzero => ?_
    constructor
    · rintro ⟨i, entry, here, rest⟩
      exact ⟨i, entry, getElem?_linkEntry_eq_some.mpr (.inl here), rest⟩
    · rintro ⟨i, entry, here, isHandle, rest⟩
      rcases getElem?_linkEntry_eq_some.mp here with old | ⟨-, rfl⟩
      · exact ⟨i, entry, old, isHandle, rest⟩
      · exact absurd isHandle.symm nonzero
  roots := by
    intro i entry here root
    rcases getElem?_linkEntry_eq_some.mp here with old | ⟨-, rfl⟩
    · exact represents.roots i entry old root
    · rfl

/-- A new entry has the next handle, until the handles wrap around. -/
theorem Represents.allocEntry {db : FsHandlesDb} {registry : Registry CatalogueObject}
    (represents : Represents db registry) (few : db.nextHandle + 1 < 2 ^ 32)
    (fileinfo : FileFoundInfo) (parent storageId : Nat) :
    Represents (db.allocEntry fileinfo parent storageId).2
      (registry.issue
        ⟨parent, storageId, fileinfo.filename, fileinfo.isDirectory, fileinfo.size⟩) := by
  have nextHandle : (db.allocEntry fileinfo parent storageId).2.nextHandle = db.nextHandle + 1 :=
    Nat.mod_eq_of_lt few
  have positive := represents.positive
  constructor
  · have same : WellFormed { db with nextHandle := (db.nextHandle + 1) % 2 ^ 32 } :=
      ⟨represents.wellFormed.linked, represents.wellFormed.byName, represents.wellFormed.byHandle⟩
    exact same.linkEntry _
  · rw [nextHandle, ← represents.next]
    rfl
  · rw [nextHandle]
    omega
  · intro i entry here
    rw [nextHandle]
    rcases getElem?_linkEntry_eq_some.mp here with old | ⟨-, rfl⟩
    · exact Nat.lt_succ_of_lt (represents.given i entry old)
    · exact Nat.lt_succ_self _
  · intro i j first second one two same nonzero
    rcases getElem?_linkEntry_eq_some.mp one with old | ⟨last, rfl⟩
    · rcases getElem?_linkEntry_eq_some.mp two with old' | ⟨-, rfl⟩
      · exact represents.unique i j first second old old' same nonzero
      · exact absurd same (Nat.ne_of_lt (represents.given i first old))
    · rcases getElem?_linkEntry_eq_some.mp two with old' | ⟨last', -⟩
      · exact absurd same.symm (Nat.ne_of_lt (represents.given j second old'))
      · rw [last, last']
  · intro handle object
    change Function.update registry.object registry.next _ handle = some object ↔ _
    rw [Function.update_apply]
    split
    · next new =>
      rw [represents.next] at new
      subst new
      constructor
      · intro same
        refine ⟨by omega, db.entries.length, _, getElem?_linkEntry_eq_some.mpr (.inr ⟨rfl, rfl⟩),
          rfl, ?_⟩
        rw [← same]
        rfl
      · rintro ⟨-, i, entry, here, isHandle, rest⟩
        rcases getElem?_linkEntry_eq_some.mp here with old | ⟨-, rfl⟩
        · exact absurd isHandle (Nat.ne_of_lt (represents.given i entry old))
        · rw [← rest]
          rfl
    · next old =>
      rw [represents.object]
      refine and_congr_right fun _ => ?_
      constructor
      · rintro ⟨i, entry, here, rest⟩
        exact ⟨i, entry, getElem?_linkEntry_eq_some.mpr (.inl here), rest⟩
      · rintro ⟨i, entry, here, isHandle, rest⟩
        rcases getElem?_linkEntry_eq_some.mp here with older | ⟨-, rfl⟩
        · exact ⟨i, entry, older, isHandle, rest⟩
        · exact absurd (isHandle.symm.trans represents.next.symm) old
  · intro i entry here root
    rcases getElem?_linkEntry_eq_some.mp here with old | ⟨-, rfl⟩
    · exact represents.roots i entry old root
    · exact absurd root (by change db.nextHandle ≠ 0; omega)

/-- A change of entries that leaves the handles alone is a change of the objects. -/
theorem Represents.change {db after : FsHandlesDb} {registry : Registry CatalogueObject}
    (represents : Represents db registry) (wellFormed : WellFormed after)
    (next : after.nextHandle = db.nextHandle) (f : Nat → FsEntry → FsEntry)
    (entries : ∀ i : Nat, after.entries[i]? = (db.entries[i]?).map (f i))
    (handles : ∀ i entry, (f i entry).handle = entry.handle)
    (g : Nat → CatalogueObject → Option CatalogueObject)
    (objects : ∀ (i : Nat) (entry : FsEntry), db.entries[i]? = some entry → entry.handle ≠ 0 →
      visible (f i entry) = (visible entry).bind (g entry.handle))
    (roots : ∀ (i : Nat) (entry : FsEntry), db.entries[i]? = some entry → entry.handle = 0 →
      (f i entry).name = entry.name) :
    Represents after (registry.revise g) := by
  have older : ∀ {i : Nat} {entry : FsEntry}, after.entries[i]? = some entry →
      ∃ old, db.entries[i]? = some old ∧ f i old = entry := by
    intro i entry here
    rw [entries] at here
    exact Option.map_eq_some_iff.mp here
  constructor
  · exact wellFormed
  · exact represents.next.trans next.symm
  · rw [next]
    exact represents.positive
  · intro i entry here
    obtain ⟨old, there, rfl⟩ := older here
    rw [handles, next]
    exact represents.given i old there
  · intro i j first second one two same nonzero
    obtain ⟨old, there, rfl⟩ := older one
    obtain ⟨old', there', rfl⟩ := older two
    rw [handles, handles] at same
    rw [handles] at nonzero
    exact represents.unique i j old old' there there' same nonzero
  · intro handle object
    change (registry.object handle).bind (g handle) = some object ↔ _
    rw [Option.bind_eq_some_iff]
    constructor
    · rintro ⟨early, here, becomes⟩
      obtain ⟨nonzero, i, entry, there, rfl, shows⟩ := (represents.object _ _).mp here
      refine ⟨nonzero, i, f i entry, by rw [entries, there]; rfl, handles i entry, ?_⟩
      rw [objects i entry there nonzero, shows]
      exact becomes
    · rintro ⟨nonzero, i, entry, here, rfl, shows⟩
      obtain ⟨old, there, rfl⟩ := older here
      rw [handles] at nonzero ⊢
      rw [objects i old there nonzero] at shows
      obtain ⟨early, showed, becomes⟩ := Option.bind_eq_some_iff.mp shows
      exact ⟨early, (represents.object _ _).mpr ⟨nonzero, i, old, there, rfl, showed⟩, becomes⟩
  · intro i entry here root
    obtain ⟨old, there, rfl⟩ := older here
    rw [handles] at root
    rw [roots i old there root]
    exact represents.roots i old there root

/-- A change of the entry that is looked up by its handle. -/
theorem Represents.onHandle {db : FsHandlesDb} {registry : Registry CatalogueObject}
    (represents : Represents db registry) (rooted : Nat → Bool) (handle : Nat)
    {change : Nat → FsHandlesDb → FsHandlesDb} (f : FsEntry → FsEntry)
    (g : CatalogueObject → Option CatalogueObject)
    (wellFormed : ∀ i, WellFormed (change i db))
    (next : ∀ i, (change i db).nextHandle = db.nextHandle)
    (entries : ∀ i j : Nat, (change i db).entries[j]? =
      if i = j then (db.entries[j]?).map f else db.entries[j]?)
    (handles : ∀ entry, (f entry).handle = entry.handle)
    (objects : ∀ entry, entry.isDeleted = false → visible (f entry) = g (objectOf entry))
    (roots : handle = 0 → ∀ entry, (f entry).name = entry.name) :
    Represents (HandleState.onHandle ⟨db, rooted⟩ handle change).db
      (CatalogueState.onHandle ⟨registry, rooted⟩ handle g).registry := by
  rw [HandleState.onHandle]
  split
  · next missed =>
    -- nothing is found, and no object of the catalogue is meant
    refine represents.change represents.wellFormed rfl (fun _ => id) (fun i => by simp)
      (fun _ _ => rfl) _ ?_ fun _ _ _ _ => rfl
    intro i entry here nonzero
    rw [id, visible]
    split
    · rfl
    · next live =>
      rw [Option.bind_some, if_neg]
      rintro ⟨isHandle, hasRoot⟩
      have selected := (getEntryByHandle_eq_none_iff represents.wellFormed rooted handle).mp missed
        entry (List.mem_of_getElem? here)
      rw [handled_iff.mpr ⟨by simpa using live, isHandle, hasRoot⟩] at selected
      cases selected
  · next i found =>
    obtain ⟨target, there, selected⟩ := getEntryByHandle_eq_some found
    obtain ⟨live, isHandle, hasRoot⟩ := handled_iff.mp selected
    refine represents.change (wellFormed i) (next i) (fun j => if i = j then f else id) ?_ ?_ _ ?_
      ?_
    · intro j
      rw [entries]
      split <;> simp
    · intro j entry
      split
      · exact handles entry
      · rfl
    · intro j entry here nonzero
      dsimp only
      split
      · next same =>
        subst same
        rw [there] at here
        cases here
        rw [objects target live, visible, live, if_neg (by decide), Option.bind_some,
          if_pos ⟨isHandle, hasRoot⟩]
      · next differs =>
        rw [id, visible]
        split
        · rfl
        · rw [Option.bind_some, if_neg]
          rintro ⟨sameHandle, -⟩
          exact differs (represents.unique i j target entry there here
            (isHandle.trans sameHandle.symm) (isHandle.trans sameHandle.symm ▸ nonzero))
    · intro j entry here root
      split
      · next same =>
        subst same
        rw [there] at here
        cases here
        exact roots (isHandle.symm.trans root) target
      · rfl

/-! ## Lookups -/

section Lookups

variable {db : FsHandlesDb} {registry : Registry CatalogueObject}

/-- `get_entry_by_handle` finds the object of the catalogue, if its storage has a root. -/
theorem Represents.lookup (represents : Represents db registry) (rooted : Nat → Bool)
    {handle : Nat} (nonzero : handle ≠ 0) :
    ((db.getEntryByHandle rooted handle).bind fun i => db.entries[i]?).map objectOf =
      (registry.object handle).filter fun object => rooted object.storageId := by
  cases found : db.getEntryByHandle rooted handle with
  | none =>
      rw [Option.bind_none, Option.map_none, eq_comm, Option.filter_eq_none_iff]
      intro object here hasRoot
      obtain ⟨-, i, entry, there, isHandle, shows⟩ := (represents.object _ _).mp here
      rw [visible] at shows
      split at shows
      · cases shows
      · next live =>
        cases shows
        have selected := (getEntryByHandle_eq_none_iff represents.wellFormed rooted handle).mp found
          entry (List.mem_of_getElem? there)
        rw [handled_iff.mpr ⟨by simpa using live, isHandle, hasRoot⟩] at selected
        cases selected
  | some i =>
      obtain ⟨entry, there, selected⟩ := getEntryByHandle_eq_some found
      obtain ⟨live, isHandle, hasRoot⟩ := handled_iff.mp selected
      have here : registry.object handle = some (objectOf entry) :=
        (represents.object _ _).mpr ⟨nonzero, i, entry, there, isHandle, by
          rw [visible, live, if_neg (by decide)]⟩
      rw [Option.bind_some, there, Option.map_some, here, eq_comm, Option.filter_eq_some_iff]
      exact ⟨rfl, hasRoot⟩

/-- Under any name but that of the roots, `find_entry` finds an entry of the catalogue's. -/
theorem Represents.object_of_named (represents : Represents db registry) {name : List UInt8}
    (notRoot : name ≠ [slash]) {parent storageId i : Nat} {entry : FsEntry}
    (here : db.entries[i]? = some entry) (selected : named name parent storageId entry = true) :
    entry.handle ≠ 0 ∧ registry.object entry.handle = some (objectOf entry) ∧
      (objectOf entry).isAt name parent storageId := by
  obtain ⟨isName, isParent, isStorage, live⟩ := named_iff.mp selected
  have nonzero : entry.handle ≠ 0 := fun root =>
    notRoot (isName.symm.trans (represents.roots i entry here root))
  refine ⟨nonzero, (represents.object _ _).mpr ⟨nonzero, i, entry, here, rfl, ?_⟩, isName,
    isParent, isStorage⟩
  rw [visible, live, if_neg Bool.false_ne_true]

/-- `find_entry` finds an entry exactly for an object of the catalogue. -/
theorem Represents.find (represents : Represents db registry) {name : List UInt8}
    (notRoot : name ≠ [slash]) (parent storageId : Nat) :
    (∃ i, db.findEntry name parent storageId = some i) ↔
      ∃ handle object, registry.object handle = some object ∧
        object.isAt name parent storageId := by
  constructor
  · rintro ⟨i, found⟩
    obtain ⟨entry, there, selected⟩ := findEntry_eq_some found
    exact ⟨_, _, (represents.object_of_named notRoot there selected).2⟩
  · rintro ⟨handle, object, here, isName, isParent, isStorage⟩
    obtain ⟨-, i, entry, there, -, shows⟩ := (represents.object _ _).mp here
    rw [visible] at shows
    split at shows
    · cases shows
    · next live =>
      cases shows
      rw [← Option.isSome_iff_exists, Option.isSome_iff_ne_none]
      intro missed
      have selected := (findEntry_eq_none_iff represents.wellFormed name parent storageId).mp missed
        entry (List.mem_of_getElem? there)
      rw [named_iff.mpr ⟨isName, isParent, isStorage, by simpa using live⟩] at selected
      cases selected

/-- Where one object at most has the name, the bucket gives what the whole list gives. -/
theorem Represents.findEntry_eq_find? (represents : Represents db registry) {name : List UInt8}
    (notRoot : name ≠ [slash]) {parent storageId : Nat}
    (single : registry.AtMostOne fun object => object.isAt name parent storageId) :
    db.findEntry name parent storageId =
      db.entryList.find? (db.entryIs (named name parent storageId)) := by
  refine represents.wellFormed.byName.find?_eq_find? (fun _ => nameAt_of_entryIs) ?_ ?_
  · intro i
    rw [represents.wellFormed.linked, List.mem_reverse, List.mem_range]
  · intro i j _ _ first second
    obtain ⟨one, here, selected⟩ := entryIs_iff.mp first
    obtain ⟨two, there, selected'⟩ := entryIs_iff.mp second
    obtain ⟨nonzero, object, isAt⟩ := represents.object_of_named notRoot here selected
    obtain ⟨-, object', isAt'⟩ := represents.object_of_named notRoot there selected'
    have sameHandle := single _ _ _ _ object object' isAt isAt'
    exact represents.unique i j one two here there sameHandle nonzero

/-- The search of a bucket is the search along the whole list. -/
theorem Represents.getEntryByHandle_eq_find? (represents : Represents db registry)
    (rooted : Nat → Bool) {handle : Nat} (nonzero : handle ≠ 0) :
    db.getEntryByHandle rooted handle =
      db.entryList.find? (db.entryIs (handled rooted handle)) := by
  refine represents.wellFormed.byHandle.find?_eq_find? (fun _ => handleAt_of_entryIs) ?_ ?_
  · intro i
    rw [represents.wellFormed.linked, List.mem_reverse, List.mem_range]
  · intro i j _ _ first second
    obtain ⟨one, here, selected⟩ := entryIs_iff.mp first
    obtain ⟨two, there, selected'⟩ := entryIs_iff.mp second
    have isHandle := (handled_iff.mp selected).2.1
    exact represents.unique i j one two here there
      (isHandle.trans (handled_iff.mp selected').2.1.symm) (isHandle ▸ nonzero)

end Lookups

/-! ## Whole sessions -/

/-- The storages that have a root change in one request only. -/
theorem HandleState.rooted_onHandle (state : HandleState) (handle : Nat)
    (change : Nat → FsHandlesDb → FsHandlesDb) :
    (state.onHandle handle change).rooted = state.rooted := by
  rw [HandleState.onHandle]
  split <;> rfl

/-- The new entry of a request is an object, unless there is one already. -/
theorem Represents.addEntry {db : FsHandlesDb} {catalogue : CatalogueState}
    (represents : Represents db catalogue.registry) {fileinfo : FileFoundInfo}
    (isName : FileName fileinfo.filename) (few : db.nextHandle + 1 < 2 ^ 32)
    (parent storageId : Nat) :
    Represents (db.addEntry fileinfo parent storageId).2
      (catalogueStep catalogue (.add fileinfo parent storageId)).registry := by
  have known := represents.find isName.ne_slash parent storageId
  rw [FsHandlesDb.addEntry, catalogueStep]
  split
  · next i found =>
    rw [if_pos (known.mp ⟨i, found⟩)]
    exact represents
  · next missed =>
    rw [if_neg]
    · exact represents.allocEntry few fileinfo parent storageId
    · intro there
      obtain ⟨i, found⟩ := known.mpr there
      rw [searchEntryFor, found] at missed
      cases missed

/-- `umount_store` withdraws the objects of the storage. -/
theorem Represents.umountStore {db : FsHandlesDb} {registry : Registry CatalogueObject}
    (represents : Represents db registry) (storageId : Nat) :
    Represents (db.umountStore storageId)
      (registry.revise fun _ object =>
        if object.storageId = storageId then none else some object) := by
  refine represents.change (represents.wellFormed.umountFrom storageId _)
    (nextHandle_umountFrom db storageId _)
    (fun _ entry => if stored storageId entry then deleted entry else entry)
    (getElem?_umountStore represents.wellFormed storageId) ?_ _ ?_ ?_
  · intro i entry
    split <;> rfl
  · intro i entry _ _
    cases gone : entry.isDeleted with
    | true =>
        rw [stored, gone, Bool.not_true, Bool.false_and, if_neg Bool.false_ne_true, visible, gone]
        rfl
    | false =>
        rw [stored, gone, Bool.not_false, Bool.true_and]
        simp only [beq_iff_eq]
        rw [visible, visible, gone, if_neg Bool.false_ne_true, Option.bind_some]
        change _ = if entry.storageId = storageId then _ else _
        split
        · rfl
        · rw [gone, if_neg Bool.false_ne_true]
  · intro i entry _ _
    split <;> rfl

/-- The catalogue simulates every request. -/
theorem Represents.step {state : HandleState} {catalogue : CatalogueState}
    (represents : Represents state.db catalogue.registry)
    (sameRoots : state.rooted = catalogue.rooted) {request : Request} (proper : request.Proper)
    (few : state.db.nextHandle + 1 < 2 ^ 32) :
    Represents (handleStep state request).db (catalogueStep catalogue request).registry ∧
      (handleStep state request).rooted = (catalogueStep catalogue request).rooted := by
  obtain ⟨db, rooted⟩ := state
  obtain ⟨registry, rooted'⟩ := catalogue
  cases sameRoots
  cases request with
  | mountRoot storageId => exact ⟨represents.allocRootEntry storageId, rfl⟩
  | add fileinfo parent storageId =>
      have same : Represents db (CatalogueState.mk registry rooted).registry := represents
      refine ⟨same.addEntry proper few parent storageId, ?_⟩
      rw [catalogueStep]
      split <;> rfl
  | discard handle =>
      refine ⟨represents.onHandle rooted handle deleted (fun _ => none)
        (fun i => represents.wellFormed.markDeleted i) (fun _ => rfl)
        (fun i j => getElem?_updateEntry db i j _) (fun _ => rfl) (fun _ _ => rfl)
        fun _ _ => rfl, ?_⟩
      exact HandleState.rooted_onHandle ..
  | rename handle newFilename =>
      refine ⟨represents.onHandle rooted handle (withName newFilename)
        (fun object => some { object with name := newFilename })
        (fun i => represents.wellFormed.renameEntry i newFilename)
        (fun i => nextHandle_renameEntry db i newFilename) (fun i j => ?_) (fun _ => rfl)
        (fun entry live => ?_) fun root => absurd root proper.1, ?_⟩
      · rw [entries_renameEntry]
        exact getElem?_updateEntry db i j _
      · rw [visible]
        exact if_neg (by rw [withName, live]; exact Bool.false_ne_true)
      · exact HandleState.rooted_onHandle ..
  | resize handle size =>
      refine ⟨represents.onHandle rooted handle (fun entry => { entry with size := size })
        (fun object => some { object with size := size })
        (fun i => represents.wellFormed.updateEntry i (fun _ => rfl) fun _ => rfl) (fun _ => rfl)
        (fun i j => getElem?_updateEntry db i j _) (fun _ => rfl) (fun entry live => ?_)
        fun _ _ => rfl, ?_⟩
      · rw [visible]
        exact if_neg (by rw [live]; exact Bool.false_ne_true)
      · exact HandleState.rooted_onHandle ..
  | unmount storageId => exact ⟨represents.umountStore storageId, rfl⟩
  | setRooted storageId present => exact ⟨represents, rfl⟩

end Nookobo.Mtp
