import Nookobo.Mtp.Folders
import Nookobo.Mtp.Responses
import Nookobo.Semantics.BulkTransfer

/-!
# Listing a folder

`mtp_op_GetObjectHandles` scans a folder, counts its live children, and writes
the handles to the host one USB packet at a time: it fills the buffer until it
holds a packet, sends it, and starts again at the front. With
`check_and_send_USB_ZLP` behind it, the host receives one container with exactly
the handles that were counted.
-/

namespace Nookobo.Mtp

open Nookobo.Text Nookobo.Semantics FsHandlesDb

variable {size : Nat}

/-! ## The loops -/

/-- `check_and_send_USB_ZLP` -/
def zeroLengthPacket (maxPacketSize total : Nat) : List (List UInt8) :=
  if maxPacketSize ≤ total ∧ total % maxPacketSize = 0 then [[]] else []

/-- The watch on the folder, where it is one; `inotify_handler_addwatch` returned the descriptor. -/
def watchFolder (folder : Option Nat) (descriptor : Int) (db : FsHandlesDb) : FsHandlesDb :=
  match folder with
  | none => db
  | some i => db.updateEntry i fun entry =>
      if entry.isDir then { entry with watchDescriptor := descriptor } else entry

/-- The children that the search has still to find. -/
def remaining (db : FsHandlesDb) : List Nat :=
  db.searchEntry.filter (db.entryIs (childOf db.handleSearch db.storageSearch))

/-- A database that differs in the place of the search at most. -/
def SameChildren (db after : FsHandlesDb) : Prop :=
  after.entries = db.entries ∧ after.handleSearch = db.handleSearch ∧
    after.storageSearch = db.storageSearch ∧ after.entryList = db.entryList

/-- Searching on leaves the children alone. -/
theorem SameChildren.trans {db between after : FsHandlesDb} (first : SameChildren db between)
    (second : SameChildren between after) : SameChildren db after :=
  ⟨second.1.trans first.1, second.2.1.trans first.2.1, second.2.2.1.trans first.2.2.1,
    second.2.2.2.trans first.2.2.2⟩

/-- The watch changes nothing else of an entry. -/
theorem entries_watchFolder (folder : Option Nat) (descriptor : Int) (db : FsHandlesDb) :
    ∃ f : Nat → FsEntry → FsEntry,
      (∀ j entry, ∃ watch, f j entry = { entry with watchDescriptor := watch }) ∧
      ∀ j : Nat, (watchFolder folder descriptor db).entries[j]? = (db.entries[j]?).map (f j) := by
  cases folder with
  | none => exact ⟨fun _ => id, fun _ _ => ⟨_, rfl⟩, fun j => by simp [watchFolder]⟩
  | some i =>
      refine ⟨fun j entry =>
          if i = j ∧ entry.isDir then { entry with watchDescriptor := descriptor }
          else entry, fun j entry => ?_, fun j => ?_⟩
      · dsimp only
        split <;> exact ⟨_, rfl⟩
      · rw [watchFolder, getElem?_updateEntry]
        split
        · next same => simp only [same, true_and]
        · next differs =>
          simp only [differs, false_and, if_false]
          exact (Option.map_id' ..).symm

/-- The watch is no part of what a session keeps. -/
theorem PathInvariant.watchFolder {rooted : Nat → Bool} {db : FsHandlesDb}
    (invariant : PathInvariant ⟨db, rooted⟩) (folder : Option Nat) (descriptor : Int) :
    PathInvariant ⟨watchFolder folder descriptor db, rooted⟩ := by
  obtain ⟨⟨catalogue, represents, sameRoots⟩, placed, numbered, bounded⟩ := invariant
  obtain ⟨f, same, entries⟩ := entries_watchFolder folder descriptor db
  have wellFormed : WellFormed (Nookobo.Mtp.watchFolder folder descriptor db) := by
    cases folder with
    | none => exact represents.wellFormed
    | some i =>
        exact represents.wellFormed.updateEntry i (fun entry => by split <;> rfl)
          fun entry => by split <;> rfl
  have next : (Nookobo.Mtp.watchFolder folder descriptor db).nextHandle = db.nextHandle := by
    cases folder <;> rfl
  have length : (Nookobo.Mtp.watchFolder folder descriptor db).entries.length =
      db.entries.length := by
    cases folder with
    | none => rfl
    | some i => exact length_updateEntry ..
  refine ⟨⟨⟨catalogue.registry.revise fun _ => some, catalogue.rooted⟩,
    represents.change wellFormed next f entries (fun i entry => ?_) _ (fun i entry _ _ => ?_)
      fun i entry _ _ => ?_, sameRoots⟩,
    placed.change f entries fun i entry => ?_, ?_, ?_⟩
  · obtain ⟨watch, becomes⟩ := same i entry
    rw [becomes]
  · obtain ⟨watch, becomes⟩ := same i entry
    rw [becomes]
    exact (Option.bind_fun_some (visible entry)).symm
  · obtain ⟨watch, becomes⟩ := same i entry
    rw [becomes]
  · obtain ⟨watch, becomes⟩ := same i entry
    rw [becomes]
    exact ⟨rfl, rfl, rfl, id⟩
  · change (Nookobo.Mtp.watchFolder folder descriptor db).nextHandle ≤
      (Nookobo.Mtp.watchFolder folder descriptor db).entries.length + 1
    rw [next, length]
    exact numbered
  · change (Nookobo.Mtp.watchFolder folder descriptor db).nextHandle < 2 ^ 32
    rw [next]
    exact bounded

/-- A watch renames nothing. -/
theorem NamesUnique.watchFolder {db : FsHandlesDb} (unique : NamesUnique db)
    (folder : Option Nat) (descriptor : Int) : NamesUnique (watchFolder folder descriptor db) := by
  obtain ⟨f, same, entries⟩ := entries_watchFolder folder descriptor db
  refine unique.change f entries fun i entry => ?_
  obtain ⟨watch, becomes⟩ := same i entry
  rw [becomes]
  exact ⟨rfl, rfl, rfl, rfl, id⟩

end Nookobo.Mtp
