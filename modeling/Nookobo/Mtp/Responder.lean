import Nookobo.Mtp.Catalogue
import Nookobo.Mtp.Storages

/-!
# Storages that come and go

While the host is in a session, the messages of a queue add and remove storages,
mount and unmount them, and lock and unlock those that can be. The host hears
of some of this in events, and it may ask for the list of the storages again.
-/

namespace Nookobo.Mtp

open Nookobo.Semantics FsHandlesDb

/-! ## The messages -/

/-- The part of `mtp_ctx` that the messages change; `fsDb` is `none` without a session. -/
structure Responder where
  table : StorageTable
  fsDb : Option FsHandlesDb

/-- `MTP_EVENT_STORE_ADDED` and `MTP_EVENT_STORE_REMOVED` -/
inductive StoreEvent where
  | added (storageId : Nat)
  | removed (storageId : Nat)
deriving DecidableEq, Repr

/-- The messages of the queue. The parameters of a new storage are those of `mtp_add_storage`. -/
inductive Message where
  | addStorage (realpath : Option (List UInt8)) (description : List UInt8) (uid gid : Int)
      (flags : Nat)
  | removeStorage (name : List UInt8)
  | mount (name : List UInt8)
  | unmount (name : List UInt8)
  | lock
  | unlock

namespace Responder

/-- `mount_store` -/
def mountStore (i : Nat) (updateFlag : Bool) (responder : Responder) : Responder :=
  match responder.table.slots i with
  | none => responder
  | some storage =>
      { table :=
          if updateFlag then responder.table.changeFlags i (lowerFlag .notMounted)
          else responder.table
        fsDb :=
          if storage.has .notMounted then responder.fsDb.map (allocRootEntry storage.storageId)
          else responder.fsDb }

/-- `umount_store` -/
def umountStore (i : Nat) (updateFlag : Bool) (responder : Responder) : Responder :=
  match responder.table.slots i with
  | none => responder
  | some storage =>
      { table :=
          if updateFlag then responder.table.changeFlags i (raiseFlag .notMounted)
          else responder.table
        fsDb := responder.fsDb.map (FsHandlesDb.umountStore storage.storageId) }

/-- The body of the loop over the storages for "lock". -/
def lockStore (i : Nat) (responder : Responder) : Responder × List StoreEvent :=
  match responder.table.slots i with
  | none => (responder, [])
  | some storage =>
      if storage.has .lockable && !storage.has .locked then
        let responder := umountStore i false responder
        ({ responder with table := responder.table.changeFlags i (raiseFlag .locked) },
          [.removed storage.storageId])
      else (responder, [])

/-- The body of the loop over the storages for "unlock". -/
def unlockStore (i : Nat) (responder : Responder) : Responder × List StoreEvent :=
  match responder.table.slots i with
  | none => (responder, [])
  | some storage =>
      if storage.has .lockable && storage.has .locked then
        let responder := mountStore i false responder
        ({ responder with table := responder.table.changeFlags i (lowerFlag .locked) },
          [.added storage.storageId])
      else (responder, [])

/-- A loop over the storages, within a number of rounds. -/
def eachStore (body : Nat → Responder → Responder × List StoreEvent) :
    Nat → Nat → Responder → Responder × List StoreEvent
  | 0, _, responder => (responder, [])
  | rounds + 1, i, responder =>
      let (responder, events) := body i responder
      let (responder, more) := eachStore body rounds (i + 1) responder
      (responder, events ++ more)

/-- The event about the storage in a slot. -/
def eventOf (event : Nat → StoreEvent) (i : Nat) (responder : Responder) : List StoreEvent :=
  (responder.table.slots i).elim [] fun storage => [event storage.storageId]

/-- One message, with the events that are pushed. -/
def receive (responder : Responder) : Message → Responder × List StoreEvent
  | .addStorage realpath description uid gid flags =>
      ({ responder with
          table := (responder.table.mtpAddStorage realpath description uid gid flags).2 }, [])
  | .removeStorage name =>
      ({ responder with table := (responder.table.mtpRemoveStorage name).2 }, [])
  | .mount name =>
      match responder.table.storageIndexByName name with
      | none => (responder, [])
      | some i =>
          let responder := mountStore i true responder
          (responder, eventOf .added i responder)
  | .unmount name =>
      match responder.table.storageIndexByName name with
      | none => (responder, [])
      | some i =>
          let responder := umountStore i true responder
          (responder, eventOf .removed i responder)
  | .lock => eachStore lockStore maxStorageNb 0 responder
  | .unlock => eachStore unlockStore maxStorageNb 0 responder

end Responder

/-! ## Both parties -/

/-- What the host does to the database between the messages. -/
inductive Change where
  | add (fileinfo : FileFoundInfo) (parent storageId : Nat)
  | discard (handle : Nat)
  | rename (handle : Nat) (newFilename : List UInt8)
  | resize (handle : Nat) (size : Int)

/-- The request that a change of the host is. -/
def Change.request : Change → Request
  | .add fileinfo parent storageId => .add fileinfo parent storageId
  | .discard handle => .discard handle
  | .rename handle newFilename => .rename handle newFilename
  | .resize handle size => .resize handle size

/-- The steps of the two parties. -/
inductive Event where
  | message (message : Message)
  | openSession
  | closeSession
  | getStorageIds
  | change (change : Change)

/-- The responder, and the storages that the host believes to be there. -/
structure Parties where
  responder : Responder
  view : Option (Nat → Bool)

/-- What the host makes of an event. -/
def heard (view : Nat → Bool) : StoreEvent → Nat → Bool
  | .added storageId => Function.update view storageId true
  | .removed storageId => Function.update view storageId false

/-- The loop of `mtp_op_OpenSession`: it ends at the first slot that is free. -/
def allocRoots (table : StorageTable) : Nat → Nat → FsHandlesDb → FsHandlesDb
  | 0, _, db => db
  | rounds + 1, i, db =>
      match table.slots i with
      | none => db
      | some storage => allocRoots table rounds (i + 1) (db.allocRootEntry storage.storageId)

/-- What an event does to the responder and to what the host believes. -/
def partiesStep (parties : Parties) : Event → Parties
  | .message message =>
      let (responder, events) := parties.responder.receive message
      ⟨responder, parties.view.map (events.foldl heard)⟩
  | .openSession =>
      match parties.responder.fsDb with
      | some _ => parties
      | none =>
          let db := allocRoots parties.responder.table maxStorageNb 0 initFsDb
          { parties with responder := { parties.responder with fsDb := some db } }
  | .closeSession => ⟨{ parties.responder with fsDb := none }, none⟩
  | .getStorageIds =>
      match parties.responder.fsDb with
      | none => parties
      | some _ =>
          { parties with
            view := some fun storageId => decide (storageId ∈ parties.responder.table.storageIds) }
  | .change change =>
      { parties with
        responder :=
          { parties.responder with
            fsDb := parties.responder.fsDb.map fun db =>
              (handleStep ⟨db, parties.responder.table.rooted⟩ change.request).db } }

/-- The responder and the host from their start, over any events. -/
def partiesMachine : Machine Parties Event where
  initial := ⟨⟨.empty, none⟩, none⟩
  step := partiesStep

/-! ## Storages that are there -/

/-- The storage is there for the host. -/
def StorageTable.offers (table : StorageTable) (storageId : Nat) : Prop :=
  ∃ i, storageId = slotId i ∧ (table.slots i).any Storage.offered = true

/-- A storage is offered exactly when the one in its slot is. -/
theorem offers_slotId_iff {table : StorageTable} {i : Nat} :
    table.offers (slotId i) ↔ (table.slots i).any Storage.offered = true :=
  ⟨fun ⟨_, isId, offered⟩ => StorageTable.slotId_injective isId ▸ offered,
    fun offered => ⟨i, rfl, offered⟩⟩

/-- Every storage that is there comes before the first free slot. -/
def StorageTable.Gapless (table : StorageTable) : Prop :=
  ∀ i storage, table.slots i = some storage → storage.offered = true →
    ∀ j, j < i → table.slots j ≠ none

/-! ## A loop over the storages -/

namespace Responder

/-- What the bodies of the loops have in common. -/
def flagStore (p : Storage → Bool) (onDb : Storage → FsHandlesDb → FsHandlesDb) (f : Nat → Nat)
    (event : Nat → StoreEvent) (i : Nat) (responder : Responder) :
    Responder × List StoreEvent :=
  match responder.table.slots i with
  | none => (responder, [])
  | some storage =>
      if p storage then
        (⟨responder.table.changeFlags i f, responder.fsDb.map (onDb storage)⟩,
          [event storage.storageId])
      else (responder, [])

/-- `lock_store` as one of the operations on flags. -/
theorem lockStore_eq : lockStore = flagStore
    (fun storage => storage.has .lockable && !storage.has .locked)
    (fun storage => FsHandlesDb.umountStore storage.storageId) (raiseFlag .locked)
    StoreEvent.removed := by
  funext i responder
  rw [lockStore, flagStore]
  cases here : responder.table.slots i with
  | none => rfl
  | some storage =>
      dsimp only
      rw [umountStore, here]
      rfl

/-- `unlock_store` as one of the operations on flags. -/
theorem unlockStore_eq : unlockStore = flagStore
    (fun storage => storage.has .lockable && storage.has .locked)
    (fun storage => if storage.has .notMounted then allocRootEntry storage.storageId else id)
    (lowerFlag .locked) StoreEvent.added := by
  funext i responder
  rw [unlockStore, flagStore]
  cases here : responder.table.slots i with
  | none => rfl
  | some storage =>
      simp only [mountStore, here, Bool.false_eq_true, if_false]
      cases storage.has .notMounted <;> simp

section Loop

variable (p : Storage → Bool) (onDb : Storage → FsHandlesDb → FsHandlesDb) (f : Nat → Nat)
  (event : Nat → StoreEvent)

/-- What becomes of a storage. -/
def flagged (storage : Storage) : Storage :=
  if p storage then StorageTable.reflag f storage else storage

/-- One operation on flags changes the flags of its slot alone. -/
theorem slots_flagStore (i : Nat) (responder : Responder) (j : Nat) :
    (flagStore p onDb f event i responder).1.table.slots j =
      if j = i then (responder.table.slots j).map (flagged p f) else responder.table.slots j := by
  rw [flagStore]
  cases here : responder.table.slots i with
  | none =>
      dsimp only
      split
      · next same => rw [same, here]; rfl
      · rfl
  | some storage =>
      dsimp only
      split
      · next selected =>
        change (if j = i then (responder.table.slots j).map (StorageTable.reflag f)
          else responder.table.slots j) = _
        split
        · next same => rw [same, here, Option.map_some, Option.map_some, flagged, if_pos selected]
        · rfl
      · next other =>
        split
        · next same => rw [same, here, Option.map_some, flagged, if_neg other]
        · rfl

/-- A loop of such operations changes the flags of the slots it comes by. -/
theorem slots_eachStore (rounds start : Nat) (responder : Responder) (j : Nat) :
    (eachStore (flagStore p onDb f event) rounds start responder).1.table.slots j =
      if start ≤ j ∧ j < start + rounds then (responder.table.slots j).map (flagged p f)
      else responder.table.slots j := by
  induction rounds generalizing start responder with
  | zero => exact (if_neg (by omega)).symm
  | succ rounds ih =>
      rw [eachStore]
      dsimp only
      rw [ih, slots_flagStore]
      by_cases now : j = start
      · rw [if_pos now, if_neg (by omega), if_pos (by omega)]
      · rw [if_neg now]
        exact if_congr (by omega) rfl rfl

/-- The whole loop changes the flags of all slots. -/
theorem slots_eachStore_all (responder : Responder) (j : Nat) :
    (eachStore (flagStore p onDb f event) maxStorageNb 0 responder).1.table.slots j =
      (responder.table.slots j).map (flagged p f) := by
  rw [slots_eachStore]
  split
  · rfl
  · next outside =>
    cases here : responder.table.slots j with
    | none => rfl
    | some storage =>
        have inside := responder.table.inside j storage here
        omega

/-- The storages of some slots that a test selects. -/
def Selected (responder : Responder) (start stop storageId : Nat) : Prop :=
  ∃ i, start ≤ i ∧ i < stop ∧ storageId = slotId i ∧ (responder.table.slots i).any p = true

variable {event} {present : Bool}
  (isEvent : ∀ view storageId, heard view (event storageId) =
    Function.update view storageId present)

include isEvent in
/-- One operation on flags tells the host of its slot alone, when its test holds. -/
theorem heard_flagStore (i : Nat) (responder : Responder) (view : Nat → Bool) (storageId : Nat) :
    ((flagStore p onDb f event i responder).2.foldl heard view) storageId =
      if storageId = slotId i ∧ (responder.table.slots i).any p = true then present
      else view storageId := by
  rw [flagStore]
  cases here : responder.table.slots i with
  | none => exact (if_neg fun both => absurd both.2 Bool.false_ne_true).symm
  | some storage =>
      dsimp only
      split
      · next selected =>
        change heard view (event storage.storageId) storageId = _
        rw [isEvent, responder.table.numbered i storage here, Function.update_apply]
        exact if_congr (and_iff_left selected).symm rfl rfl
      · next other => exact (if_neg fun both => other both.2).symm

include isEvent in
/-- The host hears of the storages that are selected, and of no others. -/
theorem heard_eachStore (rounds start : Nat) (responder : Responder) (view : Nat → Bool)
    (storageId : Nat) :
    (Selected p responder start (start + rounds) storageId →
      ((eachStore (flagStore p onDb f event) rounds start responder).2.foldl heard view)
        storageId = present) ∧
    (¬ Selected p responder start (start + rounds) storageId →
      ((eachStore (flagStore p onDb f event) rounds start responder).2.foldl heard view)
        storageId = view storageId) := by
  induction rounds generalizing start responder view with
  | zero => exact ⟨fun ⟨i, _, _, _⟩ => by omega, fun _ => rfl⟩
  | succ rounds ih =>
      have later : Selected p (flagStore p onDb f event start responder).1 (start + 1)
            (start + 1 + rounds) storageId ↔
          Selected p responder (start + 1) (start + (rounds + 1)) storageId := by
        refine exists_congr fun i => ?_
        refine and_congr_right fun after => and_congr (by omega) (and_congr_right fun _ => ?_)
        rw [slots_flagStore, if_neg (by omega)]
      have split : Selected p responder start (start + (rounds + 1)) storageId ↔
          storageId = slotId start ∧ (responder.table.slots start).any p = true ∨
            Selected p responder (start + 1) (start + (rounds + 1)) storageId := by
        constructor
        · rintro ⟨i, atLeast, below, isId, selected⟩
          rcases Nat.eq_or_lt_of_le atLeast with rfl | above
          · exact .inl ⟨isId, selected⟩
          · exact .inr ⟨i, above, below, isId, selected⟩
        · rintro (⟨isId, selected⟩ | ⟨i, above, below, isId, selected⟩)
          · exact ⟨start, Nat.le_refl _, by omega, isId, selected⟩
          · exact ⟨i, Nat.le_of_lt above, below, isId, selected⟩
      rw [eachStore, split, ← later]
      dsimp only
      rw [List.foldl_append]
      obtain ⟨found, missed⟩ := ih (start + 1) (flagStore p onDb f event start responder).1
        ((flagStore p onDb f event start responder).2.foldl heard view)
      rw [heard_flagStore p onDb f isEvent] at missed
      constructor
      · rintro (now | selected)
        · by_cases again : Selected p (flagStore p onDb f event start responder).1 (start + 1)
            (start + 1 + rounds) storageId
          · exact found again
          · rw [missed again, if_pos now]
        · exact found selected
      · intro none'
        rw [missed (none' ∘ .inr), if_neg (none' ∘ .inl)]

end Loop

end Responder

end Nookobo.Mtp
