import Mathlib.Tactic.Ring
import Nookobo.Mtp.Model
import Nookobo.Semantics.HashIndex

/-!
# The handle database

`fs_handles_db.c` and `hash_utils.c`. The entries are kept in a pool that only
grows, so an `fs_entry *` is a position in it. Every entry is linked into one
list, the newest first, and into two hash tables, by name and by handle; a
deleted entry stays where it is and is marked. `WellFormed` is the invariant
of the three structures; every operation keeps it, and by it a search of one
bucket is a search of all entries.
-/

namespace Nookobo.Mtp

open Nookobo.Semantics

/-- `HASH_TABLE_SIZE`. -/
def hashTableSize : Nat := 1024

/-- `hash_function_name`: `hash * 33 + c` in 32 bits. -/
def hashFunctionName (name : List UInt8) : Nat :=
  name.foldl (fun hash c => (hash <<< 5 + hash + c.toNat) % 2 ^ 32) 5381 % hashTableSize

/-- `hash_function_handle`: the handle modulo the size of the table. -/
def hashFunctionHandle (handle : Nat) : Nat := handle % hashTableSize

/-- The bucket an entry is looked for in. -/
def bucketOfName (name : List UInt8) : Nat := hashFunctionName name % hashTableSize

/-- The bucket a handle is looked for in. -/
def bucketOfHandle (handle : Nat) : Nat := hashFunctionHandle handle % hashTableSize

/-- `fs_handles_db`. `entryList` is the list from `entry_list` on, `searchEntry` the part of it
from `search_entry` on. -/
structure FsHandlesDb where
  entries : List FsEntry
  entryList : List Nat
  hashTableByName : Nat → List Nat
  hashTableByHandle : Nat → List Nat
  nextHandle : Nat
  searchEntry : List Nat
  handleSearch : Nat
  storageSearch : Nat

/-- `init_fs_db` -/
def initFsDb : FsHandlesDb where
  entries := []
  entryList := []
  hashTableByName := fun _ => []
  hashTableByHandle := fun _ => []
  nextHandle := 1
  searchEntry := []
  handleSearch := 0
  storageSearch := 0

namespace FsHandlesDb

/-- A test of the entry at a position. -/
def entryIs (db : FsHandlesDb) (p : FsEntry → Bool) (i : Nat) : Bool := (db.entries[i]?).any p

/-- The entry at a position changed in place. -/
def updateEntry (i : Nat) (f : FsEntry → FsEntry) (db : FsHandlesDb) : FsHandlesDb :=
  { db with entries := db.entries.modify i f }

/-! ## The hash tables -/

/-- The test in the loop of `find_entry`. -/
def named (name : List UInt8) (parent storageId : Nat) (entry : FsEntry) : Bool :=
  entry.name == name && entry.parent == parent && entry.storageId == storageId &&
    !entry.isDeleted

/-- `find_entry`: the first entry of its bucket with this name, parent and storage. -/
def findEntry (db : FsHandlesDb) (name : List UInt8) (parent storageId : Nat) : Option Nat :=
  (db.hashTableByName (bucketOfName name)).find? (db.entryIs (named name parent storageId))

/-- `search_entry`: the same for a file just found. -/
def searchEntryFor (db : FsHandlesDb) (fileinfo : FileFoundInfo) (parent storageId : Nat) :
    Option Nat :=
  db.findEntry fileinfo.filename parent storageId

/-- The test in the loop of `get_entry_by_handle`; `rooted` tells the storages that
`mtp_get_storage_root` finds. -/
def handled (rooted : Nat → Bool) (handle : Nat) (entry : FsEntry) : Bool :=
  !entry.isDeleted && entry.handle == handle && rooted entry.storageId

/-- `get_entry_by_handle`: the first entry of its bucket with this handle and a live storage. -/
def getEntryByHandle (rooted : Nat → Bool) (db : FsHandlesDb) (handle : Nat) : Option Nat :=
  (db.hashTableByHandle (bucketOfHandle handle)).find? (db.entryIs (handled rooted handle))

/-- `insert_entry` -/
def insertEntry (i : Nat) (entry : FsEntry) (db : FsHandlesDb) : FsHandlesDb :=
  { db with
    hashTableByHandle := bucketInsert db.hashTableByHandle (bucketOfHandle entry.handle) i
    hashTableByName := bucketInsert db.hashTableByName (bucketOfName entry.name) i }

/-- `remove_entry` -/
def removeEntry (i : Nat) (entry : FsEntry) (db : FsHandlesDb) : FsHandlesDb :=
  { db with
    hashTableByName := bucketRemove db.hashTableByName (bucketOfName entry.name) i
    hashTableByHandle := bucketRemove db.hashTableByHandle (bucketOfHandle entry.handle) i }

/-! ## New entries -/

/-- What `alloc_entry` and `alloc_root_entry` do with the entry they have filled in. -/
def linkEntry (entry : FsEntry) (db : FsHandlesDb) : FsHandlesDb :=
  let i := db.entries.length
  let db := insertEntry i entry { db with entries := db.entries ++ [entry] }
  { db with entryList := i :: db.entryList }

/-- `alloc_entry`: the next handle, and the entry put into list and tables. -/
def allocEntry (fileinfo : FileFoundInfo) (parent storageId : Nat) (db : FsHandlesDb) :
    Nat × FsHandlesDb :=
  let entry : FsEntry :=
    { handle := db.nextHandle, parent, storageId, name := fileinfo.filename,
      isDir := fileinfo.isDirectory, isDeleted := false, size := fileinfo.size,
      watchDescriptor := -1 }
  (db.entries.length, linkEntry entry { db with nextHandle := (db.nextHandle + 1) % 2 ^ 32 })

/-- The entry of the root folder of a storage; its name is "/". -/
def rootEntry (storageId : Nat) : FsEntry :=
  { handle := 0, parent := 0, storageId, name := [0x2F], isDir := true, isDeleted := false,
    size := 1, watchDescriptor := -1 }

/-- `alloc_root_entry`: the root folder gets the handle 0 and takes none from the counter. -/
def allocRootEntry (storageId : Nat) (db : FsHandlesDb) : FsHandlesDb :=
  linkEntry (rootEntry storageId) db

/-- `add_entry`: the entry already known, or a new one. -/
def addEntry (fileinfo : FileFoundInfo) (parent storageId : Nat) (db : FsHandlesDb) :
    Nat × FsHandlesDb :=
  match db.searchEntryFor fileinfo parent storageId with
  | some i => (i, db)
  | none => allocEntry fileinfo parent storageId db

/-! ## Walks along the list -/

/-- The test in the loop of `get_next_child_handle`. -/
def childOf (parent storageId : Nat) (entry : FsEntry) : Bool :=
  !entry.isDeleted && entry.parent == parent && entry.storageId == storageId &&
    entry.handle != entry.parent

/-- `init_search_handle`: the walk begins at the head of the list. -/
def initSearchHandle (parent storageId : Nat) (db : FsHandlesDb) : FsHandlesDb :=
  { db with searchEntry := db.entryList, handleSearch := parent, storageSearch := storageId }

/-- The test in the loop of `get_entry_by_wd`. -/
def watchedBy (watchDescriptor : Int) (entry : FsEntry) : Bool :=
  !entry.isDeleted && entry.watchDescriptor == watchDescriptor

/-! ## Changes of an entry -/

/-- `flags |= ENTRY_IS_DELETED`, and the watch is removed. -/
def deleted (entry : FsEntry) : FsEntry := { entry with isDeleted := true, watchDescriptor := -1 }

/-- The entry at a position marked as deleted; it stays in list and tables. -/
def markDeleted (i : Nat) (db : FsHandlesDb) : FsHandlesDb := db.updateEntry i deleted

/-- An entry under a new name. -/
def withName (newFilename : List UInt8) (entry : FsEntry) : FsEntry :=
  { entry with name := newFilename }

/-- The renaming in `setObjectPropValue`, once the file is renamed. -/
def renameEntry (i : Nat) (newFilename : List UInt8) (db : FsHandlesDb) : FsHandlesDb :=
  match db.entries[i]? with
  | none => db
  | some entry =>
      insertEntry i (withName newFilename entry)
        ((removeEntry i entry db).updateEntry i (withName newFilename))

/-- The test in the loop of `get_entry_by_storageid`. -/
def stored (storageId : Nat) (entry : FsEntry) : Bool :=
  !entry.isDeleted && entry.storageId == storageId

/-- The loop of `umount_store`: `get_entry_by_storageid` again and again along the list. -/
def umountFrom (storageId : Nat) : List Nat → FsHandlesDb → FsHandlesDb
  | [], db => db
  | i :: rest, db =>
      if db.entryIs (stored storageId) i then
        umountFrom storageId rest (db.markDeleted i)
      else umountFrom storageId rest db

/-- `umount_store`: every entry of the storage marked as deleted. -/
def umountStore (storageId : Nat) (db : FsHandlesDb) : FsHandlesDb :=
  umountFrom storageId db.entryList db

/-! ## The invariant -/

/-- The name of the entry at a position. -/
def nameAt (db : FsHandlesDb) (i : Nat) : List UInt8 := (db.entries[i]?).elim [] FsEntry.name

/-- The handle of the entry at a position. -/
def handleAt (db : FsHandlesDb) (i : Nat) : Nat := (db.entries[i]?).elim 0 FsEntry.handle

/-- The list has all entries, the newest first, and both tables index them. -/
structure WellFormed (db : FsHandlesDb) : Prop where
  linked : db.entryList = (List.range db.entries.length).reverse
  byName : Indexes bucketOfName db.hashTableByName db.nameAt (· < db.entries.length)
  byHandle : Indexes bucketOfHandle db.hashTableByHandle db.handleAt (· < db.entries.length)

/-- The empty database is well formed. -/
theorem wellFormed_initFsDb : WellFormed initFsDb where
  linked := rfl
  byName := (Indexes.empty bucketOfName initFsDb.nameAt).congr
    (fun i => iff_of_false (Nat.not_lt_zero i) id) fun _ _ => rfl
  byHandle := (Indexes.empty bucketOfHandle initFsDb.handleAt).congr
    (fun i => iff_of_false (Nat.not_lt_zero i) id) fun _ _ => rfl

/-- A test holds at a position exactly when there is an entry that passes it. -/
theorem entryIs_iff {db : FsHandlesDb} {p : FsEntry → Bool} {i : Nat} :
    db.entryIs p i = true ↔ ∃ entry, db.entries[i]? = some entry ∧ p entry = true := by
  rw [entryIs, Option.any_eq_true_iff_get]
  constructor
  · rintro ⟨here, selected⟩
    exact ⟨_, (Option.some_get here).symm, selected⟩
  · rintro ⟨entry, here, selected⟩
    refine ⟨by rw [here]; rfl, ?_⟩
    simpa only [here, Option.get_some] using selected

/-- Linking an entry leaves the old positions alone and puts it at the next one. -/
theorem getElem?_linkEntry (db : FsHandlesDb) (entry : FsEntry) (i : Nat) :
    (db.linkEntry entry).entries[i]? =
      if i < db.entries.length then db.entries[i]?
      else if i = db.entries.length then some entry else none := by
  change (db.entries ++ [entry])[i]? = _
  rw [List.getElem?_append]
  split
  · rfl
  · next beyond =>
    rw [List.getElem?_singleton]
    congr 1
    rw [eq_iff_iff]
    omega

/-- Linking an entry keeps list and tables in step. -/
theorem WellFormed.linkEntry {db : FsHandlesDb} (wellFormed : WellFormed db) (entry : FsEntry) :
    WellFormed (db.linkEntry entry) := by
  have length : (db.linkEntry entry).entries.length = db.entries.length + 1 := by
    change (db.entries ++ [entry]).length = _
    rw [List.length_append, List.length_singleton]
  have older : ∀ i, i < db.entries.length → (db.linkEntry entry).entries[i]? = db.entries[i]? :=
    fun i old => (getElem?_linkEntry db entry i).trans (if_pos old)
  have newest : (db.linkEntry entry).entries[db.entries.length]? = some entry := by
    rw [getElem?_linkEntry, if_neg (Nat.lt_irrefl _), if_pos rfl]
  have present : ∀ i, i < (db.linkEntry entry).entries.length ↔
      i < db.entries.length ∨ i = db.entries.length := by
    intro i
    rw [length]
    omega
  constructor
  · rw [length, List.range_succ, List.reverse_append, List.reverse_singleton,
      List.singleton_append]
    exact congrArg (db.entries.length :: ·) wellFormed.linked
  · have key : (db.linkEntry entry).nameAt db.entries.length = entry.name := by
      rw [nameAt, newest]
      rfl
    have kept : Indexes bucketOfName db.hashTableByName (db.linkEntry entry).nameAt
        (· < db.entries.length) :=
      wellFormed.byName.congr (fun _ => Iff.rfl) fun i old => by rw [nameAt, older i old, nameAt]
    have inserted := kept.insert (Nat.lt_irrefl db.entries.length)
    rw [key] at inserted
    exact inserted.congr present fun _ _ => rfl
  · have key : (db.linkEntry entry).handleAt db.entries.length = entry.handle := by
      rw [handleAt, newest]
      rfl
    have kept : Indexes bucketOfHandle db.hashTableByHandle (db.linkEntry entry).handleAt
        (· < db.entries.length) :=
      wellFormed.byHandle.congr (fun _ => Iff.rfl)
        fun i old => by rw [handleAt, older i old, handleAt]
    have inserted := kept.insert (Nat.lt_irrefl db.entries.length)
    rw [key] at inserted
    exact inserted.congr present fun _ _ => rfl

/-- A change at one position leaves the others alone. -/
theorem getElem?_updateEntry (db : FsHandlesDb) (i j : Nat) (f : FsEntry → FsEntry) :
    (db.updateEntry i f).entries[j]? =
      if i = j then (db.entries[j]?).map f else db.entries[j]? := by
  change (db.entries.modify i f)[j]? = _
  rw [List.getElem?_modify]
  split <;> simp

/-- A change in place adds and removes no entry. -/
@[simp] theorem length_updateEntry (db : FsHandlesDb) (i : Nat) (f : FsEntry → FsEntry) :
    (db.updateEntry i f).entries.length = db.entries.length := List.length_modify ..

/-- A change that leaves the name and the handle alone. -/
theorem WellFormed.updateEntry {db : FsHandlesDb} (wellFormed : WellFormed db) (i : Nat)
    {f : FsEntry → FsEntry} (sameName : ∀ entry, (f entry).name = entry.name)
    (sameHandle : ∀ entry, (f entry).handle = entry.handle) :
    WellFormed (db.updateEntry i f) := by
  have names : ∀ j, (db.updateEntry i f).nameAt j = db.nameAt j := by
    intro j
    rw [nameAt, nameAt, getElem?_updateEntry]
    split
    · cases db.entries[j]? with
      | none => rfl
      | some entry => exact sameName entry
    · rfl
  have handles : ∀ j, (db.updateEntry i f).handleAt j = db.handleAt j := by
    intro j
    rw [handleAt, handleAt, getElem?_updateEntry]
    split
    · cases db.entries[j]? with
      | none => rfl
      | some entry => exact sameHandle entry
    · rfl
  constructor
  · rw [length_updateEntry]
    exact wellFormed.linked
  · exact wellFormed.byName.congr (fun j => by rw [length_updateEntry]) fun j _ => names j
  · exact wellFormed.byHandle.congr (fun j => by rw [length_updateEntry]) fun j _ => handles j

/-- A renaming changes the name of the one entry. -/
theorem entries_renameEntry (db : FsHandlesDb) (i : Nat) (newFilename : List UInt8) :
    (db.renameEntry i newFilename).entries =
      (db.updateEntry i (withName newFilename)).entries := by
  rw [renameEntry]
  split
  · next beyond =>
    exact (List.modify_eq_self (List.getElem?_eq_none_iff.mp beyond)).symm
  · rfl

/-- A renaming takes no handle. -/
theorem nextHandle_renameEntry (db : FsHandlesDb) (i : Nat) (newFilename : List UInt8) :
    (db.renameEntry i newFilename).nextHandle = db.nextHandle := by
  rw [renameEntry]
  split <;> rfl

/-- An entry changes its bucket with its name. -/
theorem WellFormed.renameEntry {db : FsHandlesDb} (wellFormed : WellFormed db) (i : Nat)
    (newFilename : List UInt8) : WellFormed (db.renameEntry i newFilename) := by
  rw [FsHandlesDb.renameEntry]
  split
  · exact wellFormed
  · next entry here =>
    have inside : i < db.entries.length := (List.getElem?_eq_some_iff.mp here).1
    have length := length_updateEntry db i (withName newFilename)
    have newEntry : (db.updateEntry i (withName newFilename)).entries[i]? =
        some (withName newFilename entry) := by
      rw [getElem?_updateEntry, if_pos rfl, here]
      rfl
    have others : ∀ j, j ≠ i →
        (db.updateEntry i (withName newFilename)).entries[j]? = db.entries[j]? := by
      intro j differs
      rw [getElem?_updateEntry, if_neg differs.symm]
    constructor
    · have linked := wellFormed.linked
      rw [← length] at linked
      exact linked
    · have moved := wellFormed.byName.move inside
        (db.updateEntry i (withName newFilename)).nameAt
        fun j differs => by rw [nameAt, nameAt, others j differs]
      rw [nameAt, nameAt, newEntry, here] at moved
      exact moved.congr (fun j => by rw [← length]; rfl) fun _ _ => rfl
    · have moved := wellFormed.byHandle.move inside
        (db.updateEntry i (withName newFilename)).handleAt
        fun j differs => by rw [handleAt, handleAt, others j differs]
      rw [handleAt, handleAt, newEntry, here] at moved
      exact moved.congr (fun j => by rw [← length]; rfl) fun _ _ => rfl

/-- Marking an entry as deleted keeps the tables: neither name nor handle changes. -/
theorem WellFormed.markDeleted {db : FsHandlesDb} (wellFormed : WellFormed db) (i : Nat) :
    WellFormed (db.markDeleted i) :=
  wellFormed.updateEntry i (fun _ => rfl) fun _ => rfl

/-- The loop of `umount_store` keeps list and tables in step. -/
theorem WellFormed.umountFrom {db : FsHandlesDb} (wellFormed : WellFormed db) (storageId : Nat)
    (links : List Nat) : WellFormed (db.umountFrom storageId links) := by
  induction links generalizing db with
  | nil => exact wellFormed
  | cons i rest ih =>
      rw [FsHandlesDb.umountFrom]
      split
      · exact ih (wellFormed.markDeleted i)
      · exact ih wellFormed

/-- The loop of `umount_store` takes no handle. -/
theorem nextHandle_umountFrom (db : FsHandlesDb) (storageId : Nat) (links : List Nat) :
    (db.umountFrom storageId links).nextHandle = db.nextHandle := by
  induction links generalizing db with
  | nil => rfl
  | cons i rest ih =>
      rw [umountFrom]
      split
      · exact ih (db.markDeleted i)
      · exact ih db

/-- The loop of `umount_store` removes no entry. -/
theorem length_umountFrom (db : FsHandlesDb) (storageId : Nat) (links : List Nat) :
    (db.umountFrom storageId links).entries.length = db.entries.length := by
  induction links generalizing db with
  | nil => rfl
  | cons i rest ih =>
      rw [umountFrom]
      split
      · exact (ih (db.markDeleted i)).trans (length_updateEntry db i deleted)
      · exact ih db

/-- Along a list without repetitions, each live entry of the storage is deleted. -/
theorem getElem?_umountFrom {links : List Nat} (nodup : links.Nodup) (db : FsHandlesDb)
    (storageId j : Nat) :
    (db.umountFrom storageId links).entries[j]? =
      if j ∈ links then
        (db.entries[j]?).map fun entry => if stored storageId entry then deleted entry else entry
      else db.entries[j]? := by
  induction links generalizing db with
  | nil => rfl
  | cons i rest ih =>
      obtain ⟨new, later⟩ := List.nodup_cons.mp nodup
      rw [umountFrom]
      by_cases here : j = i
      · subst here
        rw [if_pos List.mem_cons_self]
        split
        · next selected =>
          obtain ⟨entry, at', isStored⟩ := entryIs_iff.mp selected
          rw [ih later, if_neg new, markDeleted, getElem?_updateEntry, if_pos rfl, at',
            Option.map_some, Option.map_some, if_pos isStored]
        · next missed =>
          rw [ih later, if_neg new]
          cases at' : db.entries[j]? with
          | none => rfl
          | some entry =>
              rw [Option.map_some, if_neg fun isStored => missed
                (entryIs_iff.mpr ⟨entry, at', isStored⟩)]
      · have member : j ∈ i :: rest ↔ j ∈ rest := by
          rw [List.mem_cons, or_iff_right here]
        split
        · rw [ih later, markDeleted, getElem?_updateEntry, if_neg (Ne.symm here)]
          simp only [member]
        · rw [ih later]
          simp only [member]

/-- `umount_store` deletes exactly the live entries of the storage. -/
theorem getElem?_umountStore {db : FsHandlesDb} (wellFormed : WellFormed db) (storageId j : Nat) :
    (db.umountStore storageId).entries[j]? =
      (db.entries[j]?).map
        fun entry => if stored storageId entry then deleted entry else entry := by
  rw [umountStore, getElem?_umountFrom (by
    rw [wellFormed.linked]
    exact List.nodup_reverse.mpr List.nodup_range)]
  split
  · rfl
  · next beyond =>
    rw [wellFormed.linked, List.mem_reverse, List.mem_range, Nat.not_lt] at beyond
    rw [List.getElem?_eq_none beyond]
    rfl

/-! ## What the searches find -/

/-- What the test of `find_entry` asks. -/
theorem named_iff {name : List UInt8} {parent storageId : Nat} {entry : FsEntry} :
    named name parent storageId entry = true ↔
      entry.name = name ∧ entry.parent = parent ∧ entry.storageId = storageId ∧
        entry.isDeleted = false := by
  simp only [named, Bool.and_eq_true, beq_iff_eq, Bool.not_eq_true', and_assoc]

/-- What the test of `get_entry_by_handle` asks. -/
theorem handled_iff {rooted : Nat → Bool} {handle : Nat} {entry : FsEntry} :
    handled rooted handle entry = true ↔
      entry.isDeleted = false ∧ entry.handle = handle ∧ rooted entry.storageId = true := by
  simp only [handled, Bool.and_eq_true, beq_iff_eq, Bool.not_eq_true', and_assoc]

section Searches

variable {db : FsHandlesDb} {i : Nat}

/-- An entry that passes the test of `find_entry` has the name asked for. -/
theorem nameAt_of_entryIs {name : List UInt8} {parent storageId : Nat}
    (selected : db.entryIs (named name parent storageId) i = true) : db.nameAt i = name := by
  obtain ⟨entry, here, matching⟩ := entryIs_iff.mp selected
  rw [nameAt, here]
  exact (named_iff.mp matching).1

/-- An entry that passes the test of `get_entry_by_handle` has the handle asked for. -/
theorem handleAt_of_entryIs {rooted : Nat → Bool} {handle : Nat}
    (selected : db.entryIs (handled rooted handle) i = true) : db.handleAt i = handle := by
  obtain ⟨entry, here, matching⟩ := entryIs_iff.mp selected
  rw [handleAt, here]
  exact (handled_iff.mp matching).2.1

/-- No present entry is selected, said of the entries. -/
theorem forall_entryIs_iff {p : FsEntry → Bool} :
    (∀ i, i < db.entries.length → db.entryIs p i = false) ↔
      ∀ entry ∈ db.entries, p entry = false := by
  constructor
  · intro none entry member
    obtain ⟨i, inside, here⟩ := List.getElem_of_mem member
    have missed := none i inside
    rwa [entryIs, List.getElem?_eq_getElem inside, here] at missed
  · intro none i inside
    rw [entryIs, List.getElem?_eq_getElem inside]
    exact none _ (List.getElem_mem inside)

/-- What `find_entry` returns is an entry that passes its test. -/
theorem findEntry_eq_some {name : List UInt8} {parent storageId : Nat}
    (found : db.findEntry name parent storageId = some i) :
    ∃ entry, db.entries[i]? = some entry ∧ named name parent storageId entry = true :=
  entryIs_iff.mp (List.find?_some found)

/-- `find_entry` misses no entry. -/
theorem findEntry_eq_none_iff (wellFormed : WellFormed db) (name : List UInt8)
    (parent storageId : Nat) :
    db.findEntry name parent storageId = none ↔
      ∀ entry ∈ db.entries, named name parent storageId entry = false := by
  rw [findEntry, wellFormed.byName.find?_eq_none_iff fun _ => nameAt_of_entryIs]
  exact forall_entryIs_iff

/-- What `get_entry_by_handle` returns is an entry that passes its test. -/
theorem getEntryByHandle_eq_some {rooted : Nat → Bool} {handle : Nat}
    (found : db.getEntryByHandle rooted handle = some i) :
    ∃ entry, db.entries[i]? = some entry ∧ handled rooted handle entry = true :=
  entryIs_iff.mp (List.find?_some found)

/-- `get_entry_by_handle` misses no entry. -/
theorem getEntryByHandle_eq_none_iff (wellFormed : WellFormed db) (rooted : Nat → Bool)
    (handle : Nat) :
    db.getEntryByHandle rooted handle = none ↔
      ∀ entry ∈ db.entries, handled rooted handle entry = false := by
  rw [getEntryByHandle, wellFormed.byHandle.find?_eq_none_iff fun _ => handleAt_of_entryIs]
  exact forall_entryIs_iff

end Searches

end FsHandlesDb

end Nookobo.Mtp
