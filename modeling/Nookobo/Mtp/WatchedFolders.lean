import Nookobo.Mtp.Inotify
import Nookobo.Semantics.Mirror

/-!
# What the watching thread does to the database

The folders that are watched keep their entries and their paths while objects
come and go in them. An event of a watch comes to one object that is added to,
or removed from, each folder that the watch is for.
-/

namespace Nookobo.Mtp

open Nookobo.Semantics FsHandlesDb

/-! ## Walks in a database that changes -/

/-- A walk to the top stays as long as the folders on it do. -/
theorem lineage_of_kept {rooted : Nat → Bool} {db after : FsHandlesDb}
    {registry registry' : Registry CatalogueObject} (represents : Represents db registry)
    (represents' : Represents after registry') {rounds : Nat} {entry : FsEntry}
    {walk : List FsEntry} (walked : db.lineage rooted rounds entry = some walk)
    (top : ReachesTop walk)
    (kept : ∀ (i : Nat) (other : FsEntry), db.entries[i]? = some other → other ∈ walk →
      after.entries[i]? = some other) : after.lineage rooted rounds entry = some walk := by
  induction rounds generalizing entry walk with
  | zero => cases walked
  | succ rounds ih =>
      rcases lineage_cons walked with ⟨noParent, rfl⟩ | ⟨folder, rest, found, above, rfl⟩
      · have isTop : entry.parent = 0 := top entry (by simp)
        have noParent' : parentEntry rooted after entry = none :=
          if_neg fun both => both.1 isTop
        rw [lineage, noParent']
      · have member : folder ∈ entry :: rest := by
          cases rounds with
          | zero => cases above
          | succ rounds =>
              rcases lineage_cons above with ⟨-, rfl⟩ | ⟨_, _, _, _, rfl⟩ <;> simp
        have found' : parentEntry rooted after entry = some folder := by
          obtain ⟨inFolder, i, there, selected⟩ :=
            (parentEntry_eq_some_iff represents).mp found
          exact (parentEntry_eq_some_iff represents').mpr
            ⟨inFolder, i, kept i folder there member, selected⟩
        have top' : ReachesTop rest := fun last isLast => top last (by
          rw [List.getLast?_cons]
          exact Option.mem_def.mpr (by rw [Option.mem_def.mp isLast, Option.getD_some]))
        have above' := ih above top' fun i other there inRest =>
          kept i other there (List.mem_cons_of_mem _ inRest)
        rw [lineage, found']
        exact congrArg (Option.map (entry :: ·)) above'

/-! ## Objects that come and go -/

/-- An object is put into the database if it is not there, and the host hears of it. -/
def addObject (fileinfo : FileFoundInfo) (parent storageId : Nat) (db : FsHandlesDb)
    (host : Nat → Bool) : FsHandlesDb × (Nat → Bool) :=
  match db.searchEntryFor fileinfo parent storageId with
  | some _ => (db, host)
  | none =>
      let (i, db) := db.addEntry fileinfo parent storageId
      (db, Function.update host (db.handleAt i) true)

/-- An object is removed if it is there, and the host hears of it. -/
def removeObject (name : List UInt8) (parent storageId : Nat) (db : FsHandlesDb)
    (host : Nat → Bool) : FsHandlesDb × (Nat → Bool) :=
  match db.findEntry name parent storageId with
  | some i => (db.markDeleted i, Function.update host (db.handleAt i) false)
  | none => (db, host)

/-- An entry is an object in a folder. -/
def InFolder (parent storageId : Nat) (entry : FsEntry) : Prop :=
  entry.parent = parent ∧ entry.storageId = storageId ∧ entry.handle ≠ entry.parent

/-- The host knows an object with this name in a folder. -/
def HostSees (host : Nat → Bool) (db : FsHandlesDb) (parent storageId : Nat)
    (name : List UInt8) : Prop :=
  ∃ (i : Nat) (entry : FsEntry), db.entries[i]? = some entry ∧
    InFolder parent storageId entry ∧ host entry.handle = true ∧ entry.name = name

/-- The host knows the objects of a folder that are not deleted. -/
def Informed (parent storageId : Nat) (db : FsHandlesDb) (host : Nat → Bool) : Prop :=
  ∀ (i : Nat) (entry : FsEntry), db.entries[i]? = some entry → InFolder parent storageId entry →
    (host entry.handle = true ↔ entry.isDeleted = false)

/-- A live child of a folder is one in it that is not deleted. -/
theorem childOf_iff_inFolder {parent storageId : Nat} {entry : FsEntry} :
    childOf parent storageId entry = true ↔
      InFolder parent storageId entry ∧ entry.isDeleted = false := by
  rw [childOf_iff, InFolder]
  tauto

/-- A host that is informed sees exactly what the database lists. -/
theorem Informed.hostSees_iff {parent storageId : Nat} {db : FsHandlesDb} {host : Nat → Bool}
    (informed : Informed parent storageId db host) (name : List UInt8) :
    HostSees host db parent storageId name ↔ Listed db parent storageId name := by
  refine exists_congr fun i => exists_congr fun entry => and_congr_right fun here => ?_
  rw [childOf_iff_inFolder, ← and_assoc]
  refine and_congr_left fun _ => and_congr_right fun inFolder => ?_
  exact informed i entry here inFolder

section Adding

variable {rooted : Nat → Bool} {db : FsHandlesDb} {parent storageId : Nat} {host : Nat → Bool}

/-- What adding an object does to the database is `add_entry`. -/
theorem addObject_fst (fileinfo : FileFoundInfo) :
    (addObject fileinfo parent storageId db host).1 =
      (db.addEntry fileinfo parent storageId).2 := by
  rw [addObject, FsHandlesDb.addEntry]
  cases db.searchEntryFor fileinfo parent storageId <;> rfl

/-- The entries when one is added. -/
theorem getElem?_addEntry_eq_some {fileinfo : FileFoundInfo} {i : Nat} {other : FsEntry} :
    (db.addEntry fileinfo parent storageId).2.entries[i]? = some other ↔
      db.entries[i]? = some other ∨ db.searchEntryFor fileinfo parent storageId = none ∧
        i = db.entries.length ∧ ⟨db.nextHandle, parent, storageId, fileinfo.filename,
          fileinfo.isDirectory, false, fileinfo.size, -1⟩ = other := by
  rw [FsHandlesDb.addEntry]
  cases found : db.searchEntryFor fileinfo parent storageId with
  | some j => exact (or_iff_left fun new => absurd new.1 (Option.some_ne_none j)).symm
  | none => exact getElem?_linkEntry_eq_some.trans (or_congr_right (and_iff_right rfl).symm)

/-- The host hears of an object when it is made, and of nothing else. -/
theorem addObject_snd (fileinfo : FileFoundInfo) :
    (addObject fileinfo parent storageId db host).2 =
      if db.searchEntryFor fileinfo parent storageId = none then
        Function.update host db.nextHandle true
      else host := by
  rw [addObject]
  cases found : db.searchEntryFor fileinfo parent storageId with
  | some i => rfl
  | none =>
      have handle : (db.addEntry fileinfo parent storageId).2.handleAt
          (db.addEntry fileinfo parent storageId).1 = db.nextHandle := by
        have new := getElem?_addEntry_eq_some.mpr (.inr ⟨found, rfl, rfl⟩)
        have index : (db.addEntry fileinfo parent storageId).1 = db.entries.length := by
          rw [FsHandlesDb.addEntry, found]
          rfl
        rw [handleAt, index, new]
        rfl
      dsimp only
      rw [handle, if_pos rfl]

/-- A host that is told of a new object stays informed. -/
theorem Informed.addObject {parent' storageId' : Nat}
    (informed : Informed parent' storageId' db host) (invariant : PathInvariant ⟨db, rooted⟩)
    (fileinfo : FileFoundInfo) :
    Informed parent' storageId' (addObject fileinfo parent storageId db host).1
      (addObject fileinfo parent storageId db host).2 := by
  obtain ⟨_, represents, -⟩ := invariant.represents
  intro i entry here inFolder
  rw [addObject_fst] at here
  rw [addObject_snd]
  rcases getElem?_addEntry_eq_some.mp here with old | ⟨missed, -, rfl⟩
  · have differs : entry.handle ≠ db.nextHandle := Nat.ne_of_lt (represents.given i entry old)
    split
    · rw [Function.update_of_ne differs]
      exact informed i entry old inFolder
    · exact informed i entry old inFolder
  · rw [if_pos missed]
    exact iff_of_true (Function.update_self ..) rfl

end Adding

section Removing

variable {rooted : Nat → Bool} {db : FsHandlesDb} {parent storageId : Nat} {host : Nat → Bool}
  {name : List UInt8}

/-- An object that is not found is not removed. -/
theorem removeObject_of_none (missed : db.findEntry name parent storageId = none) :
    removeObject name parent storageId db host = (db, host) := by
  rw [removeObject, missed]

/-- An object that is found is marked as deleted, and the host forgets it. -/
theorem removeObject_of_some {i : Nat} {entry : FsEntry}
    (found : db.findEntry name parent storageId = some i) (here : db.entries[i]? = some entry) :
    removeObject name parent storageId db host =
      (db.markDeleted i, Function.update host entry.handle false) := by
  rw [removeObject, found]
  dsimp only
  rw [handleAt, here]
  rfl

/-- A deletion leaves the other entries alone. -/
theorem getElem?_markDeleted_of_ne {i j : Nat} (differs : i ≠ j) :
    (db.markDeleted i).entries[j]? = db.entries[j]? := by
  rw [markDeleted, getElem?_updateEntry, if_neg differs]

/-- A deletion leaves its entry there, with the mark. -/
theorem getElem?_markDeleted_self {i : Nat} {entry : FsEntry} (here : db.entries[i]? = some entry) :
    (db.markDeleted i).entries[i]? = some (deleted entry) := by
  rw [markDeleted, getElem?_updateEntry, if_pos rfl, here]
  rfl

/-- An object with a name that a file can have is no root folder. -/
theorem handle_ne_zero_of_named (invariant : PathInvariant ⟨db, rooted⟩) {i : Nat}
    {entry : FsEntry} (here : db.entries[i]? = some entry) (notRoot : entry.name ≠ [slash]) :
    entry.handle ≠ 0 := by
  obtain ⟨_, represents, -⟩ := invariant.represents
  exact fun root => notRoot (represents.roots i entry here root)

/-- No object is its own folder. -/
theorem handle_ne_parent (invariant : PathInvariant ⟨db, rooted⟩) {i : Nat} {entry : FsEntry}
    (here : db.entries[i]? = some entry) (object : entry.handle ≠ 0) :
    entry.handle ≠ entry.parent := by
  intro same
  obtain ⟨_, _, _, isParent, _, less⟩ :=
    invariant.placed.inFolder i entry here (same ▸ object)
  omega

/-- A host that is told of a removed object stays informed. -/
theorem Informed.removeObject {parent' storageId' : Nat}
    (informed : Informed parent' storageId' db host) (invariant : PathInvariant ⟨db, rooted⟩)
    (notRoot : name ≠ [slash]) :
    Informed parent' storageId' (removeObject name parent storageId db host).1
      (removeObject name parent storageId db host).2 := by
  obtain ⟨_, represents, -⟩ := invariant.represents
  cases found : db.findEntry name parent storageId with
  | none =>
      rw [removeObject_of_none found]
      exact informed
  | some j =>
      obtain ⟨target, there, selected⟩ := findEntry_eq_some found
      rw [removeObject_of_some found there]
      have object : target.handle ≠ 0 :=
        handle_ne_zero_of_named invariant there ((named_iff.mp selected).1 ▸ notRoot)
      intro i entry here inFolder
      dsimp only at here ⊢
      by_cases same : j = i
      · subst same
        rw [getElem?_markDeleted_self there] at here
        cases here
        exact iff_of_false (by simp [deleted]) (by simp [deleted])
      · rw [getElem?_markDeleted_of_ne same] at here
        have differs : entry.handle ≠ target.handle := fun isHandle =>
          same (represents.unique j i target entry there here isHandle.symm object)
        rw [Function.update_of_ne differs]
        exact informed i entry here inFolder

/-- The object with the name is gone, and no other. -/
theorem listed_removeObject (invariant : PathInvariant ⟨db, rooted⟩) (unique : NamesUnique db)
    (notRoot : name ≠ [slash]) (parent' storageId' : Nat) (name' : List UInt8) :
    Listed (removeObject name parent storageId db host).1 parent' storageId' name' ↔
      Listed db parent' storageId' name' ∧
        ¬ (name' = name ∧ parent' = parent ∧ storageId' = storageId) := by
  obtain ⟨_, represents, -⟩ := invariant.represents
  cases found : db.findEntry name parent storageId with
  | none =>
      have missed := (findEntry_eq_none_iff represents.wellFormed name parent storageId).mp found
      rw [removeObject_of_none found]
      refine (and_iff_left_of_imp ?_).symm
      rintro ⟨i, entry, here, child, rfl⟩ ⟨rfl, rfl, rfl⟩
      obtain ⟨live, isParent, isStorage, -⟩ := childOf_iff.mp child
      have absent := missed entry (List.mem_of_getElem? here)
      rw [named_iff.mpr ⟨rfl, isParent, isStorage, live⟩] at absent
      cases absent
  | some j =>
      obtain ⟨target, there, selected⟩ := findEntry_eq_some found
      obtain ⟨isName, isParent, isStorage, live⟩ := named_iff.mp selected
      rw [removeObject_of_some found there]
      have object := handle_ne_zero_of_named invariant there (isName ▸ notRoot)
      constructor
      · rintro ⟨i, entry, here, child, rfl⟩
        obtain ⟨live', isParent', isStorage', nonself⟩ := childOf_iff.mp child
        dsimp only at here
        have differs : j ≠ i := by
          rintro rfl
          rw [getElem?_markDeleted_self there] at here
          cases here
          cases live'
        rw [getElem?_markDeleted_of_ne differs] at here
        refine ⟨⟨i, entry, here, child, rfl⟩, ?_⟩
        rintro ⟨sameName, rfl, rfl⟩
        have object' := handle_ne_zero_of_named invariant here (sameName ▸ notRoot)
        exact differs (unique j i target entry there here object object' live live'
          (isName.trans sameName.symm) (isParent.trans isParent'.symm)
          (isStorage.trans isStorage'.symm))
      · rintro ⟨⟨i, entry, here, child, rfl⟩, other⟩
        have differs : j ≠ i := by
          rintro rfl
          rw [there] at here
          cases here
          obtain ⟨-, isParent', isStorage', -⟩ := childOf_iff.mp child
          exact other ⟨isName, isParent'.symm.trans isParent, isStorage'.symm.trans isStorage⟩
        exact ⟨i, entry, (getElem?_markDeleted_of_ne differs).trans here, child, rfl⟩

end Removing

/-! ## The watched folders -/

/-- What is in the folders, by their watch descriptors. -/
abbrev Contents := Int → List UInt8 → Option (Bool × Int)

/-- A watched folder: where its entry is, the walk up from it, and its path. -/
structure WatchedFolder where
  index : Nat
  folder : FsEntry
  walk : List FsEntry
  base : List UInt8

/-- A folder is on the disk where `build_full_path` looks for it, whatever is in it. -/
structure OnDisk (rootOf : Nat → Option (List UInt8)) (disk : Contents → FileSystem)
    (watch : WatchedFolder) : Prop where
  watched : watch.folder.watchDescriptor ≠ -1
  tops : ReachesTop watch.walk
  path : ∃ rootPath, rootOf watch.folder.storageId = some rootPath ∧ ∀ contents,
    resolvePath (disk contents).realpath rootPath (rootPath ++ pathOf watch.walk)
      watch.folder.name = .path watch.base
  nonempty : watch.base ≠ []
  stat : ∀ contents name, FileName name →
    (disk contents).stat (watch.base ++ slash :: name) =
      contents watch.folder.watchDescriptor name

/-- The watches of a database, with the walks up from the folders. -/
structure Watching (rooted : Nat → Bool) (watches : List WatchedFolder) (db : FsHandlesDb) :
    Prop where
  here : ∀ watch ∈ watches, db.entries[watch.index]? = some watch.folder
  live : ∀ watch ∈ watches, watch.folder.isDeleted = false
  walk : ∀ watch ∈ watches,
    db.lineage rooted (db.entries.length + 1) watch.folder = some watch.walk
  all : ∀ (i : Nat) (entry : FsEntry), db.entries[i]? = some entry → entry.isDeleted = false →
    entry.watchDescriptor ≠ -1 → ∃ watch ∈ watches, watch.index = i

/-- The name is not that of a watched folder, or of one above it. -/
def Steady (watches : List WatchedFolder) (wd : Int) (name : List UInt8) : Prop :=
  ∀ watch ∈ watches, watch.folder.watchDescriptor = wd → ∀ other ∈ watches,
    ∀ entry ∈ other.walk, ¬ (entry.name = name ∧ entry.parent = watch.folder.handle ∧
      entry.storageId = watch.folder.storageId)

/-- What the steps keep of the database and of what the host knows. -/
structure Sound (rootOf : Nat → Option (List UInt8)) (watches : List WatchedFolder)
    (db : FsHandlesDb) (host : Nat → Bool) : Prop where
  paths : PathInvariant ⟨db, rootedBy rootOf⟩
  unique : NamesUnique db
  watching : Watching (rootedBy rootOf) watches db
  informed : ∀ watch ∈ watches,
    Informed watch.folder.handle watch.folder.storageId db host

section Steps

variable {rootOf : Nat → Option (List UInt8)} {disk : Contents → FileSystem}
  {watches : List WatchedFolder} (onDisk : ∀ watch ∈ watches, OnDisk rootOf disk watch)
  {db : FsHandlesDb} {host : Nat → Bool}

/-- A watched folder is at the beginning of its own walk. -/
theorem Watching.folder_mem_walk {rooted : Nat → Bool} (watching : Watching rooted watches db)
    {watch : WatchedFolder} (member : watch ∈ watches) : watch.folder ∈ watch.walk := by
  rcases lineage_cons (watching.walk watch member) with ⟨-, walk⟩ | ⟨_, _, _, _, walk⟩ <;>
    simp [walk]

/-- The walks stay as long as the folders on them do. -/
theorem Watching.kept {rooted : Nat → Bool} (watching : Watching rooted watches db)
    (tops : ∀ watch ∈ watches, ReachesTop watch.walk) {after : FsHandlesDb}
    (invariant : PathInvariant ⟨db, rooted⟩) (invariant' : PathInvariant ⟨after, rooted⟩)
    (longer : db.entries.length ≤ after.entries.length)
    (kept : ∀ (i : Nat) (entry : FsEntry), db.entries[i]? = some entry →
      (∃ watch ∈ watches, entry ∈ watch.walk) → after.entries[i]? = some entry)
    (noNew : ∀ (i : Nat) (entry : FsEntry), after.entries[i]? = some entry →
      entry.isDeleted = false → entry.watchDescriptor ≠ -1 → db.entries[i]? = some entry) :
    Watching rooted watches after where
  here := fun watch member => kept watch.index watch.folder (watching.here watch member)
    ⟨watch, member, watching.folder_mem_walk member⟩
  live := watching.live
  walk := fun watch member => by
    obtain ⟨_, represents, -⟩ := invariant.represents
    obtain ⟨_, represents', -⟩ := invariant'.represents
    refine lineage_mono (lineage_of_kept represents represents' (watching.walk watch member)
      (tops watch member) fun i entry here onWalk => ?_) (Nat.succ_le_succ longer)
    exact kept i entry here ⟨watch, member, onWalk⟩
  all := fun i entry here live watched =>
    watching.all i entry (noNew i entry here live watched) live watched

/-- A watched folder is known to the database. -/
theorem Sound.folderKnown (sound : Sound rootOf watches db host) {watch : WatchedFolder}
    (member : watch ∈ watches) :
    FolderKnown db watch.folder.handle watch.folder.storageId :=
  fun _ => ⟨watch.index, watch.folder, sound.watching.here watch member, rfl, rfl⟩

include onDisk in
/-- A new object in a watched folder keeps database and host in order. -/
theorem Sound.addObject (sound : Sound rootOf watches db host) {watch : WatchedFolder}
    (member : watch ∈ watches) {fileinfo : FileFoundInfo} (isName : FileName fileinfo.filename)
    (few : db.nextHandle + 1 < 2 ^ 32) :
    Sound rootOf watches
      (addObject fileinfo watch.folder.handle watch.folder.storageId db host).1
      (addObject fileinfo watch.folder.handle watch.folder.storageId db host).2 := by
  have known := sound.folderKnown member
  have regular : Regular ⟨db, rootedBy rootOf⟩
      (.add fileinfo watch.folder.handle watch.folder.storageId) := ⟨⟨isName, few⟩, known⟩
  have paths : PathInvariant ⟨(Nookobo.Mtp.addObject fileinfo watch.folder.handle
      watch.folder.storageId db host).1, rootedBy rootOf⟩ := by
    rw [addObject_fst]
    exact sound.paths.step regular
  obtain ⟨_, represents, -⟩ := sound.paths.represents
  have kept : ∀ (i : Nat) (entry : FsEntry), db.entries[i]? = some entry →
      (Nookobo.Mtp.addObject fileinfo watch.folder.handle watch.folder.storageId db
        host).1.entries[i]? = some entry := by
    intro i entry here
    rw [addObject_fst]
    exact getElem?_addEntry_eq_some.mpr (.inl here)
  refine ⟨paths, ?_, sound.watching.kept (fun watch member => (onDisk watch member).tops)
    sound.paths paths ?_ (fun i entry here _ => kept i entry here) ?_, fun watch member =>
      (sound.informed watch member).addObject sound.paths fileinfo⟩
  · rw [addObject_fst]
    exact sound.unique.addEntry represents.wellFormed _ _ _
  · rw [addObject_fst, FsHandlesDb.addEntry]
    split
    · exact Nat.le_refl _
    · change _ ≤ (db.entries ++ [_]).length
      rw [List.length_append]
      exact Nat.le_add_right ..
  · intro i entry here live watched
    rw [addObject_fst] at here
    rcases getElem?_addEntry_eq_some.mp here with old | ⟨-, -, rfl⟩
    · exact old
    · exact absurd rfl watched

include onDisk in
/-- A removed object that is no watched folder keeps database and host in order. -/
theorem Sound.removeObject (sound : Sound rootOf watches db host) {watch : WatchedFolder}
    (member : watch ∈ watches) {name : List UInt8} (isName : FileName name)
    (steady : Steady watches watch.folder.watchDescriptor name)
    (few : db.nextHandle + 1 < 2 ^ 32) :
    Sound rootOf watches
      (removeObject name watch.folder.handle watch.folder.storageId db host).1
      (removeObject name watch.folder.handle watch.folder.storageId db host).2 := by
  have informed : ∀ other ∈ watches, Informed other.folder.handle other.folder.storageId
      (Nookobo.Mtp.removeObject name watch.folder.handle watch.folder.storageId db host).1
      (Nookobo.Mtp.removeObject name watch.folder.handle watch.folder.storageId db host).2 :=
    fun other member => (sound.informed other member).removeObject sound.paths isName.ne_slash
  cases found : db.findEntry name watch.folder.handle watch.folder.storageId with
  | none =>
      rw [removeObject_of_none found]
      exact sound
  | some j =>
      obtain ⟨target, there, selected⟩ := findEntry_eq_some found
      obtain ⟨name', isParent, isStorage, live⟩ := named_iff.mp selected
      rw [removeObject_of_some found there] at informed ⊢
      have object := handle_ne_zero_of_named sound.paths there (name' ▸ isName.ne_slash)
      have child : childOf watch.folder.handle watch.folder.storageId target = true :=
        childOf_iff.mpr ⟨live, isParent, isStorage, handle_ne_parent sound.paths there object⟩
      have hasRoot : rootedBy rootOf watch.folder.storageId = true := by
        obtain ⟨rootPath, root, -⟩ := (onDisk watch member).path
        rw [rootedBy, root]
        rfl
      have paths : PathInvariant ⟨db.markDeleted j, rootedBy rootOf⟩ :=
        sound.paths.synced few hasRoot there child none
      have offWalks : ¬ ∃ other ∈ watches, target ∈ other.walk := by
        rintro ⟨other, isWatch, onWalk⟩
        exact steady watch member rfl other isWatch target onWalk ⟨name', isParent, isStorage⟩
      refine ⟨paths, ?_, sound.watching.kept (fun watch member => (onDisk watch member).tops)
        sound.paths paths ?_ ?_ ?_, informed⟩
      · refine sound.unique.change (fun i => if i = j then deleted else id) (fun i => ?_)
          fun i entry => ?_
        · rw [markDeleted, getElem?_updateEntry]
          by_cases same : j = i
          · rw [if_pos same, if_pos same.symm]
          · rw [if_neg same, if_neg (Ne.symm same), Option.map_id_fun, id]
        · split
          · exact ⟨rfl, rfl, rfl, rfl, fun _ => rfl⟩
          · exact ⟨rfl, rfl, rfl, rfl, id⟩
      · exact Nat.le_of_eq (length_updateEntry ..).symm
      · intro i entry here onWalk
        have differs : j ≠ i := by
          rintro rfl
          rw [there] at here
          cases here
          exact offWalks onWalk
        exact (getElem?_markDeleted_of_ne differs).trans here
      · intro i entry here alive watched
        dsimp only at here
        have differs : j ≠ i := by
          rintro rfl
          rw [getElem?_markDeleted_self there] at here
          cases here
          cases alive
        rwa [getElem?_markDeleted_of_ne differs] at here

end Steps

/-! ## A round -/

/-- The last message is heard last. -/
theorem hear_append (host : Nat → Bool) (events : List ObjectEvent) (event : ObjectEvent) :
    hear host (events ++ [event]) = hear (hear host events) [event] := by
  rw [hear, List.foldl_append]
  rfl

section Rounds

variable {rootOf : Nat → Option (List UInt8)} {disk : Contents → FileSystem}
  {watches : List WatchedFolder} (onDisk : ∀ watch ∈ watches, OnDisk rootOf disk watch)
  {watch : WatchedFolder} (member : watch ∈ watches) (contents : Contents) {watcher : Watcher}
  {host : Nat → Bool} (sound : Sound rootOf watches watcher.db (hear host watcher.pushed))

include onDisk member sound in
/-- The path of a watched folder is the one its watch was set on. -/
theorem buildFullPath_watch :
    buildFullPath (rootedBy rootOf) watcher.db (disk contents).realpath
      (rootOf watch.folder.storageId) watch.folder = some (.path watch.base) := by
  obtain ⟨rootPath, root, resolves⟩ := (onDisk watch member).path
  rw [buildFullPath, sound.watching.walk watch member, Option.map_some, root]
  exact congrArg some (resolves contents)

/-- What `fileinfo` is after a look at a file. -/
def looked (file : Option (Bool × Int)) (name : List UInt8) (fileinfo : FileFoundInfo) :
    FileFoundInfo :=
  match file with
  | some (isDirectory, size) => ⟨isDirectory, name, size⟩
  | none => { fileinfo with filename := [], size := 0 }

include onDisk member sound in
/-- The round of a creation adds the file if it is there, and an object without a name if not. -/
theorem createRound_eq {name : List UInt8} (isName : FileName name) (short : name.length ≤ 256) :
    let info := looked (contents watch.folder.watchDescriptor name) name watcher.fileinfo
    ∃ after, watcher.createRound (disk contents) rootOf name watch.folder = some after ∧
      after.db = (addObject info watch.folder.handle watch.folder.storageId watcher.db
        (hear host watcher.pushed)).1 ∧
      hear host after.pushed = (addObject info watch.folder.handle watch.folder.storageId
        watcher.db (hear host watcher.pushed)).2 := by
  have seen : (fsEntryStat (disk contents) (watch.base ++ slash :: name)).getD
      { watcher.fileinfo with filename := [], size := 0 } =
        looked (contents watch.folder.watchDescriptor name) name watcher.fileinfo := by
    rw [fsEntryStat, (onDisk watch member).stat contents name isName,
      fileNameOf_append (onDisk watch member).nonempty isName.plain,
      List.take_of_length_le short]
    cases contents watch.folder.watchDescriptor name <;> rfl
  intro info
  have path := buildFullPath_watch onDisk member contents sound
  rw [Watcher.createRound, getFileInfo, path]
  dsimp only
  rw [if_neg Bool.false_ne_true, seen, Option.map_some]
  refine ⟨_, rfl, ?_⟩
  change Watcher.db (match watcher.db.searchEntryFor info _ _ with | some _ => _ | none => _) = _ ∧
    hear host (Watcher.pushed (match watcher.db.searchEntryFor info _ _ with
      | some _ => _ | none => _)) = _
  cases found : watcher.db.searchEntryFor info watch.folder.handle watch.folder.storageId with
  | some i =>
      rw [addObject, found]
      exact ⟨rfl, rfl⟩
  | none =>
      rw [addObject, found]
      exact ⟨rfl, hear_append ..⟩

include onDisk member sound in
/-- The round of a deletion removes the object. -/
theorem deleteRound_eq {name : List UInt8} (short : name.length ≤ 256) :
    ∃ after, watcher.deleteRound (disk contents) rootOf name watch.folder = some after ∧
      after.db = (removeObject name watch.folder.handle watch.folder.storageId watcher.db
        (hear host watcher.pushed)).1 ∧
      hear host after.pushed = (removeObject name watch.folder.handle watch.folder.storageId
        watcher.db (hear host watcher.pushed)).2 := by
  have path := buildFullPath_watch onDisk member contents sound
  rw [Watcher.deleteRound, getFileInfo, path]
  dsimp only
  rw [if_pos rfl, List.take_of_length_le short, Option.map_some]
  refine ⟨_, rfl, ?_⟩
  dsimp only
  rw [if_pos rfl, searchEntryFor, removeObject]
  cases watcher.db.findEntry name watch.folder.handle watch.folder.storageId with
  | some i => exact ⟨rfl, hear_append ..⟩
  | none => exact ⟨rfl, rfl⟩

include onDisk member sound in
/-- The round of a modification changes neither the database nor what the host knows of. -/
theorem modifyRound_eq (name : List UInt8) :
    ∃ after, watcher.modifyRound (disk contents) rootOf name watch.folder = some after ∧
      after.db = watcher.db ∧ hear host after.pushed = hear host watcher.pushed := by
  have path := buildFullPath_watch onDisk member contents sound
  rw [Watcher.modifyRound, getFileInfo, path]
  dsimp only
  rw [if_pos rfl, Option.map_some]
  refine ⟨_, rfl, ?_⟩
  dsimp only
  rw [if_pos rfl]
  split
  · exact ⟨rfl, hear_append ..⟩
  · exact ⟨rfl, rfl⟩

end Rounds

/-! ## The loop over the entries of a watch -/

/-- A folder that the loop comes by. -/
def Visited (watches : List WatchedFolder) (links : List Nat) (wd : Int)
    (parent storageId : Nat) : Prop :=
  ∃ watch ∈ watches, watch.index ∈ links ∧ watch.folder.watchDescriptor = wd ∧
    parent = watch.folder.handle ∧ storageId = watch.folder.storageId

/-- The objects in the folders that were visited, after the arrival or the departure of one. -/
def ListedAfter (comes : Bool) (name : List UInt8) (visited : Nat → Nat → Prop)
    (listed : Nat → Nat → List UInt8 → Prop) (parent storageId : Nat) (name' : List UInt8) : Prop :=
  (name' = name ∧ visited parent storageId) ∧ comes = true ∨
    ¬ (name' = name ∧ visited parent storageId) ∧ listed parent storageId name'

section Loops

variable {rootOf : Nat → Option (List UInt8)} {watches : List WatchedFolder} {host : Nat → Bool}

/-- What a round does for an arrival or a departure. -/
def Tells (rootOf : Nat → Option (List UInt8)) (watches : List WatchedFolder)
    (host : Nat → Bool) (wd : Int) (comes : Bool) (name : List UInt8)
    (round : FsEntry → Watcher → Option Watcher) : Prop :=
  ∀ watch ∈ watches, watch.folder.watchDescriptor = wd → ∀ watcher : Watcher,
    Sound rootOf watches watcher.db (hear host watcher.pushed) →
    watcher.db.nextHandle + 1 < 2 ^ 32 →
    ∃ after, round watch.folder watcher = some after ∧
      Sound rootOf watches after.db (hear host after.pushed) ∧
      after.db.nextHandle ≤ watcher.db.nextHandle + 1 ∧
      ∀ parent storageId name', Listed after.db parent storageId name' ↔
        ListedAfter comes name (fun parent storageId => parent = watch.folder.handle ∧
          storageId = watch.folder.storageId) (Listed watcher.db) parent storageId name'

/-- An entry that the loop comes by is a watched folder, and the other way round. -/
theorem Watching.watchedBy_iff {rooted : Nat → Bool} {db : FsHandlesDb}
    (watching : Watching rooted watches db) {wd : Int} (isWatch : wd ≠ -1) {i : Nat}
    {entry : FsEntry} :
    (db.entries[i]?).filter (watchedBy wd) = some entry ↔
      ∃ watch ∈ watches, watch.index = i ∧ watch.folder = entry ∧
        watch.folder.watchDescriptor = wd := by
  rw [Option.filter_eq_some_iff]
  constructor
  · rintro ⟨here, selected⟩
    rw [watchedBy, Bool.and_eq_true, Bool.not_eq_true', beq_iff_eq] at selected
    obtain ⟨watch, member, rfl⟩ := watching.all i entry here selected.1 (selected.2 ▸ isWatch)
    have same := watching.here watch member
    rw [here] at same
    cases same
    exact ⟨watch, member, rfl, rfl, selected.2⟩
  · rintro ⟨watch, member, rfl, rfl, sameWd⟩
    refine ⟨watching.here watch member, ?_⟩
    rw [watchedBy, watching.live watch member, sameWd]
    simp

/-- Rounds one after the other. -/
theorem eachEntry_spec {wd : Int} (isWatch : wd ≠ -1) {comes : Bool} {name : List UInt8}
    {round : FsEntry → Watcher → Option Watcher}
    (tells : Tells rootOf watches host wd comes name round) (links : List Nat) {watcher : Watcher}
    (sound : Sound rootOf watches watcher.db (hear host watcher.pushed))
    (few : watcher.db.nextHandle + links.length + 1 < 2 ^ 32) :
    ∃ after, watcher.eachEntry round wd links = some after ∧
      Sound rootOf watches after.db (hear host after.pushed) ∧
      ∀ parent storageId name', Listed after.db parent storageId name' ↔
        ListedAfter comes name (Visited watches links wd) (Listed watcher.db) parent storageId
          name' := by
  induction links generalizing watcher with
  | nil =>
      refine ⟨watcher, rfl, sound, fun parent storageId name' => ?_⟩
      have nowhere : ¬ Visited watches [] wd parent storageId := by
        rintro ⟨watch, -, inside, -⟩
        exact List.not_mem_nil inside
      rw [ListedAfter]
      tauto
  | cons i rest ih =>
      rw [List.length_cons] at few
      cases here : (watcher.db.entries[i]?).filter (watchedBy wd) with
      | none =>
          obtain ⟨after, runs, sound', listed⟩ := ih sound (by omega)
          refine ⟨after, by rw [Watcher.eachEntry, here, runs], sound', ?_⟩
          intro parent storageId name'
          have same : Visited watches (i :: rest) wd parent storageId ↔
              Visited watches rest wd parent storageId := by
            refine exists_congr fun watch => and_congr_right fun member => ?_
            rw [List.mem_cons]
            refine ⟨fun ⟨inside, isWd, place⟩ => ⟨inside.resolve_left ?_, isWd, place⟩,
              fun ⟨inside, others⟩ => ⟨.inr inside, others⟩⟩
            rintro rfl
            rw [(sound.watching.watchedBy_iff isWatch).mpr ⟨watch, member, rfl, rfl, isWd⟩] at here
            cases here
          rw [listed, ListedAfter, ListedAfter, same]
      | some entry =>
          obtain ⟨watch, member, isIndex, rfl, isWd⟩ :=
            (sound.watching.watchedBy_iff isWatch).mp here
          obtain ⟨between, first, sound', grown, listed⟩ :=
            tells watch member isWd watcher sound (by omega)
          obtain ⟨after, runs, sound'', listed'⟩ := ih sound' (by omega)
          refine ⟨after, by rw [Watcher.eachEntry, here]; simp only [first, Option.bind_some, runs],
            sound'', ?_⟩
          intro parent storageId name'
          have split : Visited watches (i :: rest) wd parent storageId ↔
              (parent = watch.folder.handle ∧ storageId = watch.folder.storageId) ∨
                Visited watches rest wd parent storageId := by
            constructor
            · rintro ⟨other, member', inside, isWd', place⟩
              rcases List.mem_cons.mp inside with sameIndex | later
              · have same := (sound.watching.here other member').symm.trans
                  (sameIndex.trans isIndex.symm ▸ sound.watching.here watch member)
                rw [Option.some.inj same] at place
                exact .inl place
              · exact .inr ⟨other, member', later, isWd', place⟩
            · rintro (place | ⟨other, member', later, others⟩)
              · exact ⟨watch, member, isIndex ▸ List.mem_cons_self, isWd, place⟩
              · exact ⟨other, member', List.mem_cons_of_mem _ later, others⟩
          rw [listed', ListedAfter, ListedAfter, listed, ListedAfter, split]
          grind only

variable {disk : Contents → FileSystem}
  (onDisk : ∀ watch ∈ watches, OnDisk rootOf disk watch) (contents : Contents)
  {name : List UInt8} (isName : FileName name) (short : name.length ≤ 256)

include onDisk isName short in
/-- The round of a creation tells of an arrival, when the file is still there. -/
theorem tells_createRound {wd : Int} (there : (contents wd name).isSome = true) :
    Tells rootOf watches host wd true name
      (Watcher.createRound (disk contents) rootOf name) := by
  intro watch member isWd watcher sound few
  obtain ⟨file, isFile⟩ := Option.isSome_iff_exists.mp there
  obtain ⟨after, runs, sameDb, sameHost⟩ :=
    createRound_eq onDisk member contents sound isName short
  have info : looked (contents watch.folder.watchDescriptor name) name watcher.fileinfo =
      ⟨file.1, name, file.2⟩ := by rw [isWd, isFile]; rfl
  rw [info] at sameDb sameHost
  refine ⟨after, runs, ?_, ?_, ?_⟩
  · rw [sameDb, sameHost]
    exact sound.addObject onDisk member isName few
  · rw [sameDb, addObject_fst]
    exact nextHandle_handleStep_le ⟨watcher.db, rootedBy rootOf⟩ (.add _ _ _)
  · intro parent storageId name'
    rw [sameDb, addObject_fst, (added_addEntry sound.paths (sound.folderKnown member)
      isName.ne_slash).listed_iff, ListedAfter, List.mem_singleton]
    tauto

include onDisk isName short in
/-- The round of a deletion tells of a departure. -/
theorem tells_deleteRound {wd : Int} (steady : Steady watches wd name) :
    Tells rootOf watches host wd false name
      (Watcher.deleteRound (disk contents) rootOf name) := by
  intro watch member isWd watcher sound few
  obtain ⟨after, runs, sameDb, sameHost⟩ := deleteRound_eq onDisk member contents sound short
  refine ⟨after, runs, ?_, ?_, ?_⟩
  · rw [sameDb, sameHost]
    exact sound.removeObject onDisk member isName (isWd ▸ steady) few
  · rw [sameDb, removeObject]
    split
    · exact Nat.le_succ _
    · exact Nat.le_succ _
  · intro parent storageId name'
    rw [sameDb, listed_removeObject sound.paths sound.unique isName.ne_slash, ListedAfter]
    simp only [Bool.false_eq_true, and_false, false_or]
    tauto

include onDisk in
/-- IN_MODIFY leaves the database alone. -/
theorem eachEntry_modify {wd : Int} (isWatch : wd ≠ -1) (links : List Nat) {watcher : Watcher}
    (sound : Sound rootOf watches watcher.db (hear host watcher.pushed)) :
    ∃ after, watcher.eachEntry (Watcher.modifyRound (disk contents) rootOf name) wd links =
        some after ∧ after.db = watcher.db ∧
      hear host after.pushed = hear host watcher.pushed := by
  induction links generalizing watcher with
  | nil => exact ⟨watcher, rfl, rfl, rfl⟩
  | cons i rest ih =>
      rw [Watcher.eachEntry]
      cases here : (watcher.db.entries[i]?).filter (watchedBy wd) with
      | none => exact ih sound
      | some entry =>
          obtain ⟨watch, member, -, rfl, -⟩ := (sound.watching.watchedBy_iff isWatch).mp here
          obtain ⟨between, first, sameDb, sameHost⟩ :=
            modifyRound_eq onDisk member contents sound name
          obtain ⟨after, runs, sameDb', sameHost'⟩ := ih (by rw [sameDb, sameHost]; exact sound)
          refine ⟨after, ?_, sameDb'.trans sameDb, sameHost'.trans sameHost⟩
          dsimp only
          rw [first, Option.bind_some, runs]

end Loops

end Nookobo.Mtp
