import Nookobo.Mtp.Responder
import Nookobo.Mtp.Sessions

/-!
# Root folders

What the host sends goes into a folder that it names by its handle, and the top
of a storage has the handle 0. Its entry is made when a session is opened, or
when a storage is mounted that was not; so a storage that came in another way
can be seen by the host, and nothing can be put into it.
-/

namespace Nookobo.Mtp

open Nookobo.Semantics FsHandlesDb

/-- The storage has a root folder that is not deleted. -/
def HasRoot (db : FsHandlesDb) (storageId : Nat) : Prop :=
  ∃ (i : Nat) (entry : FsEntry), db.entries[i]? = some entry ∧ entry.handle = 0 ∧
    entry.storageId = storageId ∧ entry.isDeleted = false

/-- The database is one of a session. -/
def Regulated (db : FsHandlesDb) : Prop := ∃ registry, Represents db registry

/-- A new root folder is one for its storage alone. -/
theorem hasRoot_allocRootEntry_iff {db : FsHandlesDb} {storageId other : Nat} :
    HasRoot (db.allocRootEntry storageId) other ↔ other = storageId ∨ HasRoot db other := by
  constructor
  · rintro ⟨i, entry, here, root, isStorage, live⟩
    rcases getElem?_linkEntry_eq_some.mp here with old | ⟨-, rfl⟩
    · exact .inr ⟨i, entry, old, root, isStorage, live⟩
    · exact .inl isStorage.symm
  · rintro (rfl | ⟨i, entry, here, rest⟩)
    · exact ⟨_, _, getElem?_linkEntry_eq_some.mpr (.inr ⟨rfl, rfl⟩), rfl, rfl, rfl⟩
    · exact ⟨i, entry, getElem?_linkEntry_eq_some.mpr (.inl here), rest⟩

/-- Entries that are changed one by one. -/
theorem hasRoot_change_iff {db after : FsHandlesDb} {f : Nat → FsEntry → FsEntry}
    (entries : ∀ i : Nat, after.entries[i]? = (db.entries[i]?).map (f i))
    (same : ∀ i entry, (f i entry).handle = entry.handle ∧
      (f i entry).storageId = entry.storageId) {storageId : Nat} :
    HasRoot after storageId ↔ ∃ (i : Nat) (entry : FsEntry), db.entries[i]? = some entry ∧
      entry.handle = 0 ∧ entry.storageId = storageId ∧ (f i entry).isDeleted = false := by
  constructor
  · rintro ⟨i, entry, here, root, isStorage, live⟩
    rw [entries] at here
    obtain ⟨old, there, rfl⟩ := Option.map_eq_some_iff.mp here
    exact ⟨i, old, there, (same i old).1 ▸ root, (same i old).2 ▸ isStorage, live⟩
  · rintro ⟨i, entry, here, root, isStorage, live⟩
    refine ⟨i, f i entry, ?_, (same i entry).1.trans root, (same i entry).2.trans isStorage, live⟩
    rw [entries, here]
    rfl

/-- Unmounting discards the root folders of its storage alone. -/
theorem hasRoot_umountStore_iff {db : FsHandlesDb} (wellFormed : WellFormed db)
    {storageId other : Nat} :
    HasRoot (db.umountStore storageId) other ↔ other ≠ storageId ∧ HasRoot db other := by
  rw [hasRoot_change_iff (getElem?_umountStore wellFormed storageId) fun i entry => by
    split <;> exact ⟨rfl, rfl⟩]
  constructor
  · rintro ⟨i, entry, here, root, isStorage, live⟩
    split at live
    · cases live
    · next other' =>
      refine ⟨fun same => other' ?_, i, entry, here, root, isStorage, live⟩
      rw [stored, live, isStorage, same]
      exact beq_self_eq_true storageId
  · rintro ⟨differs, i, entry, here, root, isStorage, live⟩
    refine ⟨i, entry, here, root, isStorage, ?_⟩
    rw [if_neg]
    · exact live
    · intro isStored
      rw [stored, Bool.and_eq_true] at isStored
      exact differs (isStorage.symm.trans (eq_of_beq isStored.2))

/-- A change that keeps handle and storage moves root folders only by its deleted mark. -/
theorem hasRoot_updateEntry_iff {db after : FsHandlesDb} {i : Nat} {f : FsEntry → FsEntry}
    (entries : after.entries = (db.updateEntry i f).entries)
    (same : ∀ entry, (f entry).handle = entry.handle ∧ (f entry).storageId = entry.storageId)
    {storageId : Nat} :
    HasRoot after storageId ↔ ∃ (j : Nat) (entry : FsEntry), db.entries[j]? = some entry ∧
      entry.handle = 0 ∧ entry.storageId = storageId ∧
        ((if i = j then f else id) entry).isDeleted = false := by
  refine hasRoot_change_iff (f := fun j => if i = j then f else id) (fun j => ?_) fun j entry => ?_
  · rw [entries, getElem?_updateEntry]
    split
    · rfl
    · rw [Option.map_id]
      rfl
  · split
    · exact same entry
    · exact ⟨rfl, rfl⟩

/-- Another root folder than the one at a position. -/
def HasOtherRoot (db : FsHandlesDb) (i storageId : Nat) : Prop :=
  ∃ (j : Nat) (entry : FsEntry), j ≠ i ∧ db.entries[j]? = some entry ∧ entry.handle = 0 ∧
    entry.storageId = storageId ∧ entry.isDeleted = false

/-- After a deletion a storage has a root folder if it had another one. -/
theorem hasRoot_markDeleted_iff {db : FsHandlesDb} {i storageId : Nat} :
    HasRoot (db.markDeleted i) storageId ↔ HasOtherRoot db i storageId := by
  have result := @hasRoot_updateEntry_iff db (db.markDeleted i) i deleted rfl
    (fun _ => ⟨rfl, rfl⟩) storageId
  rw [result]
  constructor
  · rintro ⟨j, entry, here, root, isStorage, live⟩
    by_cases same : i = j
    · rw [if_pos same] at live
      cases live
    · rw [if_neg same] at live
      exact ⟨j, entry, Ne.symm same, here, root, isStorage, live⟩
  · rintro ⟨j, entry, other, here, root, isStorage, live⟩
    refine ⟨j, entry, here, root, isStorage, ?_⟩
    rw [if_neg other.symm]
    exact live

/-- A new file is no root folder. -/
theorem hasRoot_addEntry_iff {db : FsHandlesDb} (positive : 0 < db.nextHandle)
    (fileinfo : FileFoundInfo) (parent storage storageId : Nat) :
    HasRoot (db.addEntry fileinfo parent storage).2 storageId ↔ HasRoot db storageId := by
  rw [addEntry]
  split
  · rfl
  · constructor
    · rintro ⟨i, entry, here, root, rest⟩
      rcases getElem?_linkEntry_eq_some.mp here with old | ⟨-, rfl⟩
      · exact ⟨i, entry, old, root, rest⟩
      · exact absurd root (Nat.ne_of_gt positive)
    · rintro ⟨i, entry, here, rest⟩
      exact ⟨i, entry, getElem?_linkEntry_eq_some.mpr (.inl here), rest⟩

/-- The change discards the last root folder that is seen of a storage. -/
def Uproots (db : FsHandlesDb) (table : StorageTable) : Change → Prop
  | .discard 0 => ∃ (i : Nat) (entry : FsEntry), db.getEntryByHandle table.rooted 0 = some i ∧
      db.entries[i]? = some entry ∧ table.offers entry.storageId ∧
        ¬ HasOtherRoot db i entry.storageId
  | _ => False

/-- The storages that are there have root folders. -/
def RootsLive (db : FsHandlesDb) (table : StorageTable) : Prop :=
  ∀ storageId, table.offers storageId → HasRoot db storageId

/-- A request of the host keeps the roots exactly when it does not discard the last one seen. -/
theorem rootsLive_change_iff {db : FsHandlesDb} {table : StorageTable} (regulated : Regulated db)
    (roots : RootsLive db table) (change : Change) :
    RootsLive (handleStep ⟨db, table.rooted⟩ change.request).db table ↔
      ¬ Uproots db table change := by
  obtain ⟨registry, represents⟩ := regulated
  have still : ∀ {after : FsHandlesDb}, (∀ storageId, HasRoot db storageId →
      HasRoot after storageId) → RootsLive after table := fun kept storageId offers =>
    kept storageId (roots storageId offers)
  -- a change of the entry with a handle that does not delete it
  have onHandle : ∀ (handle : Nat) (change : Nat → FsHandlesDb → FsHandlesDb)
      (f : FsEntry → FsEntry), (∀ i, (change i db).entries = (db.updateEntry i f).entries) →
      (∀ entry, (f entry).handle = entry.handle ∧ (f entry).storageId = entry.storageId ∧
        (f entry).isDeleted = entry.isDeleted) →
      RootsLive ((HandleState.mk db table.rooted).onHandle handle change).db table := by
    intro handle change f entries same
    refine still fun storageId rooted => ?_
    rw [HandleState.onHandle]
    split
    · exact rooted
    · next i _ =>
      obtain ⟨j, entry, here, root, isStorage, live⟩ := rooted
      refine (hasRoot_updateEntry_iff (entries i)
        fun entry => ⟨(same entry).1, (same entry).2.1⟩).mpr
        ⟨j, entry, here, root, isStorage, ?_⟩
      split
      · exact (same entry).2.2.trans live
      · exact live
  cases change with
  | add fileinfo parent storage =>
      refine iff_of_true (still fun storageId rooted => ?_) id
      exact (hasRoot_addEntry_iff represents.positive fileinfo parent storage storageId).mpr rooted
  | discard handle =>
      change RootsLive ((HandleState.mk db table.rooted).onHandle handle markDeleted).db table ↔ _
      rw [HandleState.onHandle]
      dsimp only
      cases found : db.getEntryByHandle table.rooted handle with
      | none =>
          refine iff_of_true roots fun uproots => ?_
          cases handle with
          | zero =>
              obtain ⟨i, _, found', -⟩ := uproots
              rw [found] at found'
              cases found'
          | succ => exact uproots
      | some i =>
          obtain ⟨entry, here, selected⟩ := getEntryByHandle_eq_some found
          obtain ⟨-, isHandle, -⟩ := handled_iff.mp selected
          dsimp only
          -- a root folder at another place stays
          have kept : ∀ storageId, HasRoot db storageId → (entry.handle = 0 →
              entry.storageId = storageId → HasOtherRoot db i storageId) →
              HasRoot (db.markDeleted i) storageId := by
            rintro storageId ⟨j, root, there, isRoot, isStorage, live⟩ other
            rw [hasRoot_markDeleted_iff]
            by_cases same : j = i
            · subst same
              rw [here] at there
              cases there
              exact other isRoot isStorage
            · exact ⟨j, root, same, there, isRoot, isStorage, live⟩
          cases handle with
          | zero =>
              constructor
              · rintro still' ⟨k, other, found', there, offers, none'⟩
                rw [found] at found'
                cases found'
                exact none' (hasRoot_markDeleted_iff.mp (still' _ offers))
              · intro spared storageId offers
                refine kept storageId (roots storageId offers) fun _ isStorage => ?_
                by_contra none'
                subst isStorage
                exact spared ⟨i, entry, found, here, offers, none'⟩
          | succ handle =>
              refine iff_of_true (still fun storageId rooted => kept storageId rooted ?_) id
              exact fun root => absurd (isHandle.symm.trans root) (Nat.succ_ne_zero handle)
  | rename handle newFilename =>
      refine iff_of_true (onHandle handle _ (withName newFilename)
        (fun i => entries_renameEntry db i newFilename) fun _ => ⟨rfl, rfl, rfl⟩) id
  | resize handle size =>
      exact iff_of_true (onHandle handle _ _ (fun _ => rfl) fun _ => ⟨rfl, rfl, rfl⟩) id

/-- The storages that are there have roots, slot by slot. -/
theorem rootsLive_iff {db : FsHandlesDb} {table : StorageTable} :
    RootsLive db table ↔ ∀ i storage, table.slots i = some storage → storage.offered = true →
      HasRoot db (slotId i) := by
  constructor
  · intro roots i storage here offered
    exact roots _ (offers_slotId_iff.mpr (by rw [here]; exact offered))
  · rintro roots storageId ⟨i, rfl, offered⟩
    obtain ⟨storage, here, offered⟩ := (Option.any_eq_true _ _).mp offered
    exact roots i storage here offered

/-- A root folder is added within the session. -/
theorem Regulated.allocRootEntry {db : FsHandlesDb} (regulated : Regulated db) (storageId : Nat) :
    Regulated (db.allocRootEntry storageId) :=
  regulated.imp fun _ represents => represents.allocRootEntry storageId

/-- A storage is unmounted within the session. -/
theorem Regulated.umountStore {db : FsHandlesDb} (regulated : Regulated db) (storageId : Nat) :
    Regulated (db.umountStore storageId) := by
  obtain ⟨registry, represents⟩ := regulated
  exact ⟨_, represents.umountStore storageId⟩

/-- What is done about a storage changes the root folders of no other. -/
def Effects (onDb : Storage → FsHandlesDb → FsHandlesDb) (effect : Storage → Prop → Prop) : Prop :=
  ∀ storage db, Regulated db → Regulated (onDb storage db) ∧
    ∀ storageId, HasRoot (onDb storage db) storageId ↔
      if storageId = storage.storageId then effect storage (HasRoot db storageId)
      else HasRoot db storageId

/-- What a loop over the storages does to the root folders. -/
theorem hasRoot_eachStore {p : Storage → Bool} {onDb : Storage → FsHandlesDb → FsHandlesDb}
    {effect : Storage → Prop → Prop} (changes : Effects onDb effect) (f : Nat → Nat)
    (event : Nat → StoreEvent) (rounds start : Nat) {responder : Responder} {db : FsHandlesDb}
    (opened : responder.fsDb = some db) (regulated : Regulated db) :
    ∃ after, (Responder.eachStore (Responder.flagStore p onDb f event) rounds start
        responder).1.fsDb = some after ∧ Regulated after ∧
      ∀ i storage, responder.table.slots i = some storage → (HasRoot after (slotId i) ↔
        if start ≤ i ∧ i < start + rounds ∧ p storage = true then
          effect storage (HasRoot db (slotId i))
        else HasRoot db (slotId i)) := by
  induction rounds generalizing start responder db with
  | zero => exact ⟨db, opened, regulated, fun i _ _ => by rw [if_neg (by omega)]⟩
  | succ rounds ih =>
      rw [Responder.eachStore]
      dsimp only
      have slots := Responder.slots_flagStore p onDb f event start responder
      obtain ⟨between, opened', regulated', first⟩ : ∃ between,
          (Responder.flagStore p onDb f event start responder).1.fsDb = some between ∧
          Regulated between ∧ ∀ i storage, responder.table.slots i = some storage →
            (HasRoot between (slotId i) ↔ if i = start ∧ p storage = true then
              effect storage (HasRoot db (slotId i)) else HasRoot db (slotId i)) := by
        rw [Responder.flagStore]
        cases here : responder.table.slots start with
        | none =>
            refine ⟨db, opened, regulated, fun i storage there => ?_⟩
            rw [if_neg]
            rintro ⟨rfl, -⟩
            rw [here] at there
            cases there
        | some storage =>
            dsimp only
            split
            · next selected =>
              obtain ⟨regulated', roots⟩ := changes storage db regulated
              refine ⟨onDb storage db, by dsimp only; rw [opened]; rfl, regulated', ?_⟩
              intro i other there
              rw [roots, responder.table.numbered start storage here]
              by_cases same : i = start
              · subst same
                rw [here] at there
                cases there
                rw [if_pos rfl, if_pos ⟨rfl, selected⟩]
              · rw [if_neg fun isId => same (StorageTable.slotId_injective isId),
                  if_neg fun both => same both.1]
            · next passed =>
              refine ⟨db, opened, regulated, fun i other there => ?_⟩
              rw [if_neg]
              rintro ⟨rfl, selected⟩
              rw [here] at there
              cases there
              exact passed selected
      obtain ⟨after, runs, regulated'', rest⟩ := ih (start + 1) opened' regulated'
      refine ⟨after, runs, regulated'', fun i storage here => ?_⟩
      by_cases now : i = start
      · subst now
        have later : (Responder.flagStore p onDb f event i responder).1.table.slots i =
            some (Responder.flagged p f storage) := by
          rw [slots, if_pos rfl, here]
          rfl
        rw [rest i _ later, if_neg (by omega), first i storage here]
        have same : (i = i ∧ p storage = true) ↔
            (i ≤ i ∧ i < i + (rounds + 1) ∧ p storage = true) :=
          ⟨fun both => ⟨Nat.le_refl i, by omega, both.2⟩, fun all => ⟨rfl, all.2.2⟩⟩
        exact iff_of_eq (if_congr same rfl rfl)
      · have later : (Responder.flagStore p onDb f event start responder).1.table.slots i =
            some storage := by
          rw [slots, if_neg now, here]
        have unselected : ¬ (i = start ∧ p storage = true) := fun both => now both.1
        have same : (start + 1 ≤ i ∧ i < start + 1 + rounds ∧ p storage = true) ↔
            (start ≤ i ∧ i < start + (rounds + 1) ∧ p storage = true) :=
          ⟨fun all => ⟨by omega, by omega, all.2.2⟩, fun all => ⟨by omega, by omega, all.2.2⟩⟩
        rw [rest i storage later, first i storage here, if_neg unselected]
        exact iff_of_eq (if_congr same rfl rfl)

/-- A change in one slot. -/
theorem RootsLive.slot {db after : FsHandlesDb} {table table' : StorageTable}
    (roots : RootsLive db table) {i : Nat} (others : ∀ j, j ≠ i → table'.slots j = table.slots j)
    (kept : ∀ j, j ≠ i → HasRoot db (slotId j) → HasRoot after (slotId j))
    (here : ∀ storage, table'.slots i = some storage → storage.offered = true →
      HasRoot after (slotId i)) : RootsLive after table' := by
  refine rootsLive_iff.mpr fun j storage there offered => ?_
  by_cases same : j = i
  · subst same
    exact here storage there offered
  · rw [others j same] at there
    exact kept j same (rootsLive_iff.mp roots j storage there offered)

/-- The message leaves every storage that is there, if they had root folders, with one. -/
def Grounded (db : FsHandlesDb) (table : StorageTable) : Message → Prop
  | .addStorage realpath description uid gid flags =>
      (table.mtpAddStorage realpath description uid gid flags).1 = 0 ∨
        hasFlag flags .notMounted = true ∨ hasFlag flags .locked = true ∨
        HasRoot db (table.mtpAddStorage realpath description uid gid flags).1
  | .unlock => ∀ i storage, table.slots i = some storage → storage.has .lockable = true →
      storage.has .locked = true → storage.has .notMounted = true ∨ HasRoot db (slotId i)
  | _ => True

/-- `umount_store` leaves its storage without a root folder. -/
theorem effects_umountStore :
    Effects (fun storage => FsHandlesDb.umountStore storage.storageId) fun _ _ => False := by
  refine fun storage db regulated => ⟨regulated.umountStore _, fun storageId => ?_⟩
  obtain ⟨_, represents⟩ := regulated
  rw [hasRoot_umountStore_iff represents.wellFormed]
  split
  · next same => exact iff_of_false (fun both => both.1 same) id
  · next other => exact and_iff_right other

/-- `mount_store` gives its storage a root folder, unless it was mounted. -/
theorem effects_mountStore :
    Effects
      (fun storage => if storage.has .notMounted then allocRootEntry storage.storageId else id)
      fun storage rooted => storage.has .notMounted = true ∨ rooted := by
  intro storage db regulated
  dsimp only
  cases storage.has .notMounted with
  | true =>
      refine ⟨regulated.allocRootEntry _, fun storageId => ?_⟩
      rw [if_pos rfl, hasRoot_allocRootEntry_iff]
      split
      · next same => exact iff_of_true (.inl same) (.inl rfl)
      · next other => exact or_iff_right other
  | false =>
      refine ⟨regulated, fun storageId => ?_⟩
      rw [if_neg Bool.false_ne_true]
      simp

/-- The flags of one storage change. -/
theorem RootsLive.changeFlags {db after : FsHandlesDb} {table : StorageTable}
    (roots : RootsLive db table) {i : Nat} {storage : Storage}
    (here : table.slots i = some storage) (f : Nat → Nat)
    (kept : ∀ j, j ≠ i → HasRoot db (slotId j) → HasRoot after (slotId j))
    (rooted : (StorageTable.reflag f storage).offered = true → HasRoot after (slotId i)) :
    RootsLive after (table.changeFlags i f) := by
  refine roots.slot (fun j other => table.slots_changeFlags_of_ne other f) kept ?_
  intro storage' here' offered
  rw [StorageTable.slots_changeFlags_self here f] at here'
  cases here'
  exact rooted offered

/-- A storage that is added keeps the roots exactly when it is not there at once or has a root. -/
theorem rootsLive_mtpAddStorage_iff {db : FsHandlesDb} {table : StorageTable}
    (roots : RootsLive db table) (realpath : Option (List UInt8)) (description : List UInt8)
    (uid gid : Int) (flags : Nat) :
    RootsLive db (table.mtpAddStorage realpath description uid gid flags).2 ↔
      Grounded db table (.addStorage realpath description uid gid flags) := by
  rcases table.mtpAddStorage_cases realpath description uid gid flags with
    same | ⟨i, rootPath, after, adds, -, free, slots⟩
  · rw [Grounded, same]
    exact iff_of_true roots (.inl rfl)
  · rw [Grounded, adds]
    have nonzero : slotId i ≠ 0 := by
      rw [slotId]
      omega
    have added : after.slots i = some ⟨rootPath, description, slotId i, flags, uid, gid⟩ := by
      rw [slots, Function.update_self]
    have offered : Storage.offered ⟨rootPath, description, slotId i, flags, uid, gid⟩ =
        (!hasFlag flags .notMounted && !hasFlag flags .locked) := rfl
    constructor
    · intro still
      have rooted := rootsLive_iff.mp still i _ added
      rw [offered] at rooted
      cases mounted : hasFlag flags .notMounted with
      | true => exact .inr (.inl rfl)
      | false =>
          cases open' : hasFlag flags .locked with
          | true => exact .inr (.inr (.inl rfl))
          | false => exact .inr (.inr (.inr (rooted (by rw [mounted, open']; rfl))))
    · intro grounded
      refine roots.slot (i := i) (fun j other => by rw [slots, Function.update_of_ne other])
        (fun _ _ rooted => rooted) fun storage here isOffered => ?_
      rw [added] at here
      cases here
      rw [offered] at isOffered
      rcases grounded with zero | hidden | shut | rooted
      · exact absurd zero nonzero
      · rw [hidden] at isOffered
        cases isOffered
      · rw [shut, Bool.and_comm] at isOffered
        cases isOffered
      · exact rooted

/-- A storage that is removed needs no root folder any more. -/
theorem RootsLive.mtpRemoveStorage {db : FsHandlesDb} {table : StorageTable}
    (roots : RootsLive db table) (name : List UInt8) :
    RootsLive db (table.mtpRemoveStorage name).2 := by
  rw [StorageTable.mtpRemoveStorage]
  split
  · exact roots
  · next i _ =>
    refine roots.slot (i := i) (fun j other => if_neg other) (fun _ _ rooted => rooted) ?_
    intro storage here
    change (if i = i then none else _) = some storage at here
    rw [if_pos rfl] at here
    cases here

/-- `mount` leaves every storage that is there with a root folder. -/
theorem RootsLive.mount {responder : Responder} {db : FsHandlesDb}
    (opened : responder.fsDb = some db) (regulated : Regulated db)
    (roots : RootsLive db responder.table) (name : List UInt8) :
    ∃ after, (responder.receive (.mount name)).1.fsDb = some after ∧ Regulated after ∧
      RootsLive after (responder.receive (.mount name)).1.table := by
  rw [Responder.receive]
  cases found : responder.table.storageIndexByName name with
  | none => exact ⟨db, opened, regulated, roots⟩
  | some i =>
      obtain ⟨storage, here, -⟩ := StorageTable.storageIndexByName_eq_some_iff.mp found
      have isId := responder.table.numbered i storage here
      simp only [Responder.mountStore, here, if_true, opened]
      cases mounted : storage.has .notMounted with
      | true =>
          refine ⟨_, if_pos rfl, regulated.allocRootEntry _, ?_⟩
          exact roots.changeFlags here _
            (fun j _ rooted => hasRoot_allocRootEntry_iff.mpr (.inr rooted))
            fun _ => hasRoot_allocRootEntry_iff.mpr (.inl isId.symm)
      | false =>
          refine ⟨db, if_neg Bool.false_ne_true, regulated, ?_⟩
          refine roots.changeFlags here _ (fun j _ rooted => rooted) fun offered => ?_
          refine rootsLive_iff.mp roots i storage here ?_
          rw [Storage.has] at mounted
          simpa [Storage.offered, Storage.has, StorageTable.reflag, mounted] using offered

/-- `unmount` leaves every storage that is there with a root folder. -/
theorem RootsLive.unmount {responder : Responder} {db : FsHandlesDb}
    (opened : responder.fsDb = some db) (regulated : Regulated db)
    (roots : RootsLive db responder.table) (name : List UInt8) :
    ∃ after, (responder.receive (.unmount name)).1.fsDb = some after ∧ Regulated after ∧
      RootsLive after (responder.receive (.unmount name)).1.table := by
  rw [Responder.receive]
  cases found : responder.table.storageIndexByName name with
  | none => exact ⟨db, opened, regulated, roots⟩
  | some i =>
      obtain ⟨storage, here, -⟩ := StorageTable.storageIndexByName_eq_some_iff.mp found
      have isId := responder.table.numbered i storage here
      simp only [Responder.umountStore, here, if_true, opened, Option.map_some]
      refine ⟨_, rfl, regulated.umountStore _, ?_⟩
      obtain ⟨_, represents⟩ := regulated
      refine roots.changeFlags here _ ?_ ?_
      · intro j other rooted
        rw [hasRoot_umountStore_iff represents.wellFormed, isId]
        exact ⟨fun same => other (StorageTable.slotId_injective same), rooted⟩
      · intro offered
        simp [Storage.offered, Storage.has, StorageTable.reflag] at offered

/-- `lock` leaves every storage that is there with a root folder. -/
theorem RootsLive.lock {responder : Responder} {db : FsHandlesDb}
    (opened : responder.fsDb = some db) (regulated : Regulated db)
    (roots : RootsLive db responder.table) :
    ∃ after, (responder.receive .lock).1.fsDb = some after ∧ Regulated after ∧
      RootsLive after (responder.receive .lock).1.table := by
  rw [Responder.receive, Responder.lockStore_eq]
  obtain ⟨after, runs, regulated', rooted⟩ := hasRoot_eachStore
    (p := fun storage => storage.has .lockable && !storage.has .locked) effects_umountStore
    (raiseFlag .locked) StoreEvent.removed maxStorageNb 0 opened regulated
  refine ⟨after, runs, regulated', rootsLive_iff.mpr ?_⟩
  intro i storage' here' offered
  rw [Responder.slots_eachStore_all] at here'
  obtain ⟨storage, here, rfl⟩ := Option.map_eq_some_iff.mp here'
  rw [Responder.flagged] at offered
  split at offered
  · simp [Storage.offered, Storage.has, StorageTable.reflag] at offered
  · next other =>
    rw [rooted i storage here, if_neg fun all => other all.2.2]
    exact rootsLive_iff.mp roots i storage here offered

/-- What is unlocked has a root folder if it had one or gets one, being not mounted. -/
theorem rootsLive_unlock_iff {responder : Responder} {db : FsHandlesDb}
    (opened : responder.fsDb = some db) (regulated : Regulated db)
    (roots : RootsLive db responder.table) :
    ∃ after, (responder.receive .unlock).1.fsDb = some after ∧ Regulated after ∧
      (RootsLive after (responder.receive .unlock).1.table ↔
        Grounded db responder.table .unlock) := by
  rw [Responder.receive, Responder.unlockStore_eq]
  obtain ⟨after, runs, regulated', rooted⟩ := hasRoot_eachStore
    (p := fun storage => storage.has .lockable && storage.has .locked) effects_mountStore
    (lowerFlag .locked) StoreEvent.added maxStorageNb 0 opened regulated
  refine ⟨after, runs, regulated', ?_⟩
  have slots := Responder.slots_eachStore_all
    (fun storage => storage.has .lockable && storage.has .locked)
    (fun storage => if storage.has .notMounted then allocRootEntry storage.storageId else id)
    (lowerFlag .locked) StoreEvent.added responder
  -- a storage that is unlocked
  have unlocked : ∀ i storage, responder.table.slots i = some storage →
      (storage.has .lockable && storage.has .locked) = true →
      (HasRoot after (slotId i) ↔ storage.has .notMounted = true ∨ HasRoot db (slotId i)) := by
    intro i storage here selected
    have inside := responder.table.inside i storage here
    rw [rooted i storage here, if_pos ⟨Nat.zero_le i, by omega, selected⟩]
  rw [rootsLive_iff]
  constructor
  · intro still i storage here lockable locked
    cases mounted : storage.has .notMounted with
    | true => exact .inl rfl
    | false =>
        have selected : (storage.has .lockable && storage.has .locked) = true := by
          rw [lockable, locked]
          rfl
        have opened' : (StorageTable.reflag (lowerFlag .locked) storage).offered = true := by
          rw [Storage.has] at mounted
          simp [Storage.offered, Storage.has, StorageTable.reflag, mounted]
        refine .inr (((unlocked i storage here selected).mp
          (still i _ (by rw [slots, here]; rfl) ?_)).resolve_left ?_)
        · rw [Responder.flagged, if_pos selected]
          exact opened'
        · rw [mounted]
          exact Bool.false_ne_true
  · intro grounded i storage' here' offered
    rw [slots] at here'
    obtain ⟨storage, here, rfl⟩ := Option.map_eq_some_iff.mp here'
    rw [Responder.flagged] at offered
    split at offered
    · next selected =>
      have both := Bool.and_eq_true_iff.mp selected
      exact (unlocked i storage here selected).mpr (grounded i storage here both.1 both.2)
    · next other =>
      rw [rooted i storage here, if_neg fun all => other all.2.2]
      exact rootsLive_iff.mp roots i storage here offered

/-- A message leaves every storage that is there with a root folder exactly when it is grounded. -/
theorem rootsLive_receive_iff {responder : Responder} {db : FsHandlesDb}
    (opened : responder.fsDb = some db) (regulated : Regulated db)
    (roots : RootsLive db responder.table) (message : Message) :
    ∃ after, (responder.receive message).1.fsDb = some after ∧ Regulated after ∧
      (RootsLive after (responder.receive message).1.table ↔
        Grounded db responder.table message) := by
  cases message with
  | addStorage realpath description uid gid flags =>
      exact ⟨db, opened, regulated,
        rootsLive_mtpAddStorage_iff roots realpath description uid gid flags⟩
  | removeStorage name =>
      exact ⟨db, opened, regulated, iff_of_true (roots.mtpRemoveStorage name) trivial⟩
  | mount name =>
      obtain ⟨after, runs, regulated', still⟩ := RootsLive.mount opened regulated roots name
      exact ⟨after, runs, regulated', iff_of_true still trivial⟩
  | unmount name =>
      obtain ⟨after, runs, regulated', still⟩ := RootsLive.unmount opened regulated roots name
      exact ⟨after, runs, regulated', iff_of_true still trivial⟩
  | lock =>
      obtain ⟨after, runs, regulated', still⟩ := RootsLive.lock opened regulated roots
      exact ⟨after, runs, regulated', iff_of_true still trivial⟩
  | unlock => exact rootsLive_unlock_iff opened regulated roots

/-- The root folders of a new session are added within it. -/
theorem Regulated.allocRoots {db : FsHandlesDb} (regulated : Regulated db) (table : StorageTable)
    (rounds start : Nat) : Regulated (allocRoots table rounds start db) := by
  induction rounds generalizing start db with
  | zero => exact regulated
  | succ rounds ih =>
      rw [Nookobo.Mtp.allocRoots]
      split
      · exact regulated
      · exact ih (regulated.allocRootEntry _) _

/-- A session begins with the root folders of the slots up to the first free one. -/
theorem hasRoot_allocRoots_iff {table : StorageTable} {rounds start : Nat} {db : FsHandlesDb}
    {storageId : Nat} :
    HasRoot (allocRoots table rounds start db) storageId ↔ HasRoot db storageId ∨
      ∃ i, start ≤ i ∧ i < start + rounds ∧ storageId = slotId i ∧
        ∀ j, start ≤ j → j ≤ i → table.slots j ≠ none := by
  induction rounds generalizing start db with
  | zero => exact (or_iff_left fun ⟨i, _, _, _⟩ => by omega).symm
  | succ rounds ih =>
      rw [allocRoots]
      cases here : table.slots start with
      | none =>
          refine (or_iff_left ?_).symm
          rintro ⟨i, atLeast, -, -, filled⟩
          exact filled start (Nat.le_refl _) atLeast here
      | some storage =>
          dsimp only
          rw [ih, hasRoot_allocRootEntry_iff, table.numbered start storage here]
          constructor
          · rintro ((rfl | rooted) | ⟨i, above, below, isId, filled⟩)
            · refine .inr ⟨start, Nat.le_refl _, by omega, rfl, fun j atLeast atMost => ?_⟩
              rw [Nat.le_antisymm atMost atLeast, here]
              exact Option.some_ne_none storage
            · exact .inl rooted
            · refine .inr ⟨i, by omega, by omega, isId, fun j atLeast atMost => ?_⟩
              rcases Nat.eq_or_lt_of_le atLeast with rfl | later
              · rw [here]
                exact Option.some_ne_none storage
              · exact filled j later atMost
          · rintro (rooted | ⟨i, atLeast, below, isId, filled⟩)
            · exact .inl (.inr rooted)
            · rcases Nat.eq_or_lt_of_le atLeast with rfl | above
              · exact .inl (.inl isId)
              · exact .inr ⟨i, above, by omega, isId,
                  fun j later atMost => filled j (Nat.le_of_lt later) atMost⟩

/-- A session begins with all root folders exactly when no free slot cuts the loop short. -/
theorem rootsLive_allocRoots_iff {table : StorageTable} :
    RootsLive (allocRoots table maxStorageNb 0 initFsDb) table ↔ table.Gapless := by
  rw [rootsLive_iff]
  constructor
  · intro roots i storage here offered j below
    rcases hasRoot_allocRoots_iff.mp (roots i storage here offered) with
      ⟨_, _, none', _⟩ | ⟨k, -, -, isId, filled⟩
    · cases none'
    · cases StorageTable.slotId_injective isId
      exact filled j (Nat.zero_le j) (Nat.le_of_lt below)
  · intro gapless i storage here offered
    have inside := table.inside i storage here
    refine hasRoot_allocRoots_iff.mpr (.inr ⟨i, Nat.zero_le i, by omega, rfl, fun j _ atMost => ?_⟩)
    rcases Nat.eq_or_lt_of_le atMost with rfl | below
    · rw [here]
      exact Option.some_ne_none storage
    · exact gapless i storage here offered j below

/-- In a session, every storage that is there has a root folder. -/
def Parties.Rooted (parties : Parties) : Prop :=
  ∀ db, parties.responder.fsDb = some db → RootsLive db parties.responder.table

/-- The host's changes are of objects with names, and the handles last. -/
def Orderly (parties : Parties) : Event → Prop
  | .change change => change.request.Proper ∧
      ∀ db, parties.responder.fsDb = some db → db.nextHandle + 1 < 2 ^ 32
  | _ => True

/-- What keeps the roots: no message, session or change that leaves a storage there without one. -/
def KeepsRoots (parties : Parties) : Event → Prop
  | .message message => ∀ db, parties.responder.fsDb = some db →
      Grounded db parties.responder.table message
  | .openSession => parties.responder.fsDb = none → parties.responder.table.Gapless
  | .change change => ∀ db, parties.responder.fsDb = some db →
      ¬ Uproots db parties.responder.table change
  | _ => True

/-- Without a session the messages open none. -/
theorem fsDb_eachStore_of_none {p : Storage → Bool} {onDb : Storage → FsHandlesDb → FsHandlesDb}
    {f : Nat → Nat} {event : Nat → StoreEvent} {rounds start : Nat} {responder : Responder}
    (closed : responder.fsDb = none) :
    (Responder.eachStore (Responder.flagStore p onDb f event) rounds start responder).1.fsDb =
      none := by
  induction rounds generalizing start responder with
  | zero => exact closed
  | succ rounds ih =>
      rw [Responder.eachStore]
      refine ih ?_
      rw [Responder.flagStore]
      split
      · exact closed
      · split
        · exact Option.map_eq_none_iff.mpr closed
        · exact closed

/-- Without a session no message opens one. -/
theorem fsDb_receive_of_none {responder : Responder} (closed : responder.fsDb = none)
    (message : Message) : (responder.receive message).1.fsDb = none := by
  cases message with
  | addStorage realpath description uid gid flags => exact closed
  | removeStorage name => exact closed
  | mount name =>
      rw [Responder.receive]
      split
      · exact closed
      · next i _ =>
        change (Responder.mountStore i true responder).fsDb = none
        rw [Responder.mountStore]
        split
        · exact closed
        · dsimp only
          split
          · exact Option.map_eq_none_iff.mpr closed
          · exact closed
  | unmount name =>
      rw [Responder.receive]
      split
      · exact closed
      · next i _ =>
        change (Responder.umountStore i true responder).fsDb = none
        rw [Responder.umountStore]
        split
        · exact closed
        · exact Option.map_eq_none_iff.mpr closed
  | lock =>
      rw [Responder.receive, Responder.lockStore_eq]
      exact fsDb_eachStore_of_none closed
  | unlock =>
      rw [Responder.receive, Responder.unlockStore_eq]
      exact fsDb_eachStore_of_none closed

/-- What carries the roots through a run. -/
structure RootsInvariant (parties : Parties) : Prop where
  rooted : parties.Rooted
  regulated : ∀ db, parties.responder.fsDb = some db → Regulated db

/-- An event keeps the session's database, and the roots exactly when it is one that keeps them. -/
theorem RootsInvariant.step {parties : Parties} (invariant : RootsInvariant parties) {event : Event}
    (orderly : Orderly parties event) :
    (∀ db, (partiesStep parties event).responder.fsDb = some db → Regulated db) ∧
      ((partiesStep parties event).Rooted ↔ KeepsRoots parties event) := by
  cases event with
  | message message =>
      change (∀ db, (parties.responder.receive message).1.fsDb = some db → Regulated db) ∧
        ((∀ db, (parties.responder.receive message).1.fsDb = some db →
          RootsLive db (parties.responder.receive message).1.table) ↔
        ∀ db, parties.responder.fsDb = some db → Grounded db parties.responder.table message)
      cases opened : parties.responder.fsDb with
      | none =>
          rw [fsDb_receive_of_none opened]
          exact ⟨by rintro _ ⟨⟩, iff_of_true (by rintro _ ⟨⟩) (by rintro _ ⟨⟩)⟩
      | some db =>
          obtain ⟨after, opened', regulated', rooted⟩ := rootsLive_receive_iff opened
            (invariant.regulated db opened) (invariant.rooted db opened) message
          rw [opened']
          refine ⟨?_, ?_⟩
          · rintro _ ⟨⟩
            exact regulated'
          · simpa using rooted
  | openSession =>
      rw [KeepsRoots, partiesStep]
      cases opened : parties.responder.fsDb with
      | some db =>
          refine ⟨fun _ same => invariant.regulated _ same, iff_of_true ?_ (by rintro ⟨⟩)⟩
          exact invariant.rooted
      | none =>
          refine ⟨?_, ?_⟩
          · rintro _ ⟨⟩
            exact Regulated.allocRoots ⟨_, represents_initFsDb⟩ _ _ _
          · rw [← rootsLive_allocRoots_iff, Parties.Rooted]
            simp
  | closeSession => exact ⟨by rintro _ ⟨⟩, iff_of_true (by rintro _ ⟨⟩) trivial⟩
  | getStorageIds =>
      rw [partiesStep]
      split
      · exact ⟨invariant.regulated, iff_of_true invariant.rooted trivial⟩
      · exact ⟨invariant.regulated, iff_of_true invariant.rooted trivial⟩
  | change change =>
      obtain ⟨proper, few⟩ := orderly
      refine ⟨?_, ?_⟩
      · intro after same
        obtain ⟨db, opened, rfl⟩ := Option.map_eq_some_iff.mp same
        obtain ⟨registry, represents⟩ := invariant.regulated db opened
        have catalogue : Represents db (CatalogueState.mk registry
            parties.responder.table.rooted).registry := represents
        exact ⟨_, (catalogue.step rfl proper (few db opened)).1⟩
      · change (∀ after, (parties.responder.fsDb.map fun db =>
            (handleStep ⟨db, parties.responder.table.rooted⟩ change.request).db) = some after →
            RootsLive after parties.responder.table) ↔
          ∀ db, parties.responder.fsDb = some db → ¬ Uproots db parties.responder.table change
        cases opened : parties.responder.fsDb with
        | none => exact iff_of_true (by rintro _ ⟨⟩) (by rintro _ ⟨⟩)
        | some db =>
            have rooted := rootsLive_change_iff (invariant.regulated db opened)
              (invariant.rooted db opened) change
            simpa using rooted

/-- In every run in which the host changes objects with names, the storages that are there always
have root folders exactly when each step keeps them: no storage is added to a session ready for
use or unlocked there without one, no free slot cuts a session's beginning short, and the host
does not delete the last root folder of a storage. -/
theorem roots_live_iff {events : List Event}
    (orderly : partiesMachine.StepsMeet Orderly partiesMachine.initial events) :
    partiesMachine.Always Parties.Rooted partiesMachine.initial events ↔
      partiesMachine.StepsMeet KeepsRoots partiesMachine.initial events := by
  refine Machine.always_iff_stepsMeet RootsInvariant (fun _ invariant => invariant.rooted) ?_ ?_
    ⟨by rintro _ ⟨⟩, by rintro _ ⟨⟩⟩ orderly
  · intro parties event invariant orderly keeps
    obtain ⟨regulated, rooted⟩ := invariant.step orderly
    exact ⟨rooted.mpr keeps, regulated⟩
  · intro parties event invariant orderly misses still
    exact misses ((invariant.step orderly).2.mp still)

/-- A storage is added, a session opened, and a file put into it. -/
def bookEvents : List Event :=
  [.message (.addStorage (some "/mnt".toUTF8.toList) "b".toUTF8.toList (-1) (-1) 0), .openSession,
    .change (.add ⟨false, "a".toUTF8.toList, 5⟩ 0 (slotId 0))]

/-- The three events keep the roots, and are events that do. -/
theorem roots_live_bookEvents :
    partiesMachine.Always Parties.Rooted partiesMachine.initial bookEvents ↔
      partiesMachine.StepsMeet KeepsRoots partiesMachine.initial bookEvents :=
  roots_live_iff ⟨trivial, trivial,
    ⟨fileName_a, fun db opened => by cases opened; decide +kernel⟩, trivial⟩

end Nookobo.Mtp
