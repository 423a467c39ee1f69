import Nookobo.Mtp.Responder

/-!
# What the host believes

The host asks for the list of the storages and follows the events. What it then
believes can differ from what is there: some changes of a storage are never
announced, some are announced that did not happen, and the list ends at the
first free slot.
-/

namespace Nookobo.Mtp

open Nookobo.Semantics

/-- What the host believes is so. -/
def Agree (view : Nat → Bool) (table : StorageTable) : Prop :=
  ∀ storageId, view storageId = true ↔ table.offers storageId

/-- In a session, the host believes what is so. -/
def Parties.Agreed (parties : Parties) : Prop :=
  ∀ view, parties.view = some view → Agree view parties.responder.table

/-- A change in one slot, and of what the host believes about it. -/
theorem Agree.slot {view view' : Nat → Bool} {table after : StorageTable} (agree : Agree view table)
    {i : Nat} (others : ∀ j, j ≠ i → after.slots j = table.slots j)
    (others' : ∀ storageId, storageId ≠ slotId i → view' storageId = view storageId) :
    Agree view' after ↔
      (view' (slotId i) = true ↔ (after.slots i).any Storage.offered = true) := by
  refine ⟨fun still => (still _).trans offers_slotId_iff, fun here storageId => ?_⟩
  by_cases isId : storageId = slotId i
  · rw [isId, here, offers_slotId_iff]
  · rw [others' storageId isId, agree storageId]
    refine exists_congr fun j => and_congr_right fun isSlot => ?_
    rw [others j fun same => isId (same ▸ isSlot)]

/-- A host that is told about a slot whose flags change believes what it is told. -/
theorem Agree.reflag {view : Nat → Bool} {table : StorageTable} (agree : Agree view table) {i : Nat}
    {storage : Storage} (here : table.slots i = some storage) (f : Nat → Nat) (present : Bool) :
    Agree (Function.update view (slotId i) present) (table.changeFlags i f) ↔
      (StorageTable.reflag f storage).offered = present := by
  rw [agree.slot (i := i) (fun j other => table.slots_changeFlags_of_ne other f)
    fun _ other => Function.update_of_ne other .., Function.update_self,
    StorageTable.slots_changeFlags_self here, Option.any_some]
  exact ⟨fun same => (Bool.eq_iff_iff.mpr same).symm, fun same => by rw [same]⟩

/-- A storage with a name. -/
def StorageTable.hasNamed (table : StorageTable) (name : List UInt8) (p : Storage → Bool) : Prop :=
  ∃ i storage, table.slots i = some storage ∧ storage.description = name ∧ p storage = true

/-- A name has a storage of some kind exactly when its slot has one. -/
theorem hasNamed_iff {table : StorageTable} {name : List UInt8} {p : Storage → Bool} :
    table.hasNamed name p ↔
      ∃ i, table.storageIndexByName name = some i ∧ (table.slots i).any p = true := by
  constructor
  · rintro ⟨i, storage, here, isName, selected⟩
    refine ⟨i, StorageTable.storageIndexByName_eq_some_iff.mpr ⟨storage, here, isName⟩, ?_⟩
    rw [here]
    exact selected
  · rintro ⟨i, found, selected⟩
    obtain ⟨storage, here, isName⟩ := StorageTable.storageIndexByName_eq_some_iff.mp found
    rw [here] at selected
    exact ⟨i, storage, here, isName, selected⟩

/-- The step tells the host what it does, or does nothing that it would have to tell. -/
def Told (table : StorageTable) : Message → Prop
  | .addStorage realpath description uid gid flags =>
      (table.mtpAddStorage realpath description uid gid flags).1 = 0 ∨
        hasFlag flags .notMounted = true ∨ hasFlag flags .locked = true
  | .removeStorage name => ¬ table.hasNamed name Storage.offered
  | .mount name => ¬ table.hasNamed name fun storage => storage.has .locked
  | .unlock => ∀ i storage, table.slots i = some storage → storage.has .lockable = true →
      storage.has .locked = true → storage.has .notMounted = false
  | _ => True

/-- A loop over the storages, when every storage that is selected becomes what the host hears. -/
theorem agree_eachStore_iff {view : Nat → Bool} {responder : Responder}
    (agree : Agree view responder.table) (p : Storage → Bool)
    (onDb : Storage → FsHandlesDb → FsHandlesDb) (f : Nat → Nat) {event : Nat → StoreEvent}
    {present : Bool} (isEvent : ∀ view storageId, heard view (event storageId) =
      Function.update view storageId present) :
    Agree
      ((Responder.eachStore (Responder.flagStore p onDb f event) maxStorageNb 0 responder).2.foldl
        heard view)
      (Responder.eachStore (Responder.flagStore p onDb f event) maxStorageNb 0 responder).1.table ↔
      ∀ i storage, responder.table.slots i = some storage → p storage = true →
        (StorageTable.reflag f storage).offered = present := by
  have hears := Responder.heard_eachStore p onDb f isEvent maxStorageNb 0 responder view
  have slots := fun i => Responder.slots_eachStore_all p onDb f event responder i
  generalize Responder.eachStore (Responder.flagStore p onDb f event) maxStorageNb 0 responder =
    result at hears slots
  -- what the host hears of a selected storage
  have selected : ∀ i storage, responder.table.slots i = some storage → p storage = true →
      ((result.2.foldl heard view) (slotId i) = true ↔ present = true) ∧
        (result.1.table.offers (slotId i) ↔ (StorageTable.reflag f storage).offered = true) := by
    intro i storage here isSelected
    have inside := responder.table.inside i storage here
    constructor
    · rw [(hears (slotId i)).1 ⟨i, Nat.zero_le i, by omega, rfl, by rw [here]; exact isSelected⟩]
    · rw [offers_slotId_iff, slots, here, Option.map_some, Responder.flagged, if_pos isSelected]
      rfl
  constructor
  · intro still i storage here isSelected
    obtain ⟨believed, isThere⟩ := selected i storage here isSelected
    rw [Bool.eq_iff_iff, ← believed, still (slotId i), isThere]
  · intro tells storageId
    by_cases isSelected : Responder.Selected p responder 0 (0 + maxStorageNb) storageId
    · obtain ⟨i, -, -, rfl, passes⟩ := isSelected
      obtain ⟨storage, here, passes⟩ := (Option.any_eq_true _ _).mp passes
      obtain ⟨believed, isThere⟩ := selected i storage here passes
      rw [believed, isThere, tells i storage here passes]
    · rw [(hears storageId).2 isSelected, agree storageId]
      refine exists_congr fun i => and_congr_right fun isId => ?_
      rw [slots]
      cases here : responder.table.slots i with
      | none => rfl
      | some storage =>
          have inside := responder.table.inside i storage here
          have other : p storage ≠ true := fun passes =>
            isSelected ⟨i, Nat.zero_le i, by omega, isId, by rw [here]; exact passes⟩
          rw [Option.map_some, Responder.flagged, if_neg other]

/-- A message leaves host and responder in agreement exactly when the host is told. -/
theorem agree_receive_iff {view : Nat → Bool} {responder : Responder}
    (agree : Agree view responder.table) (message : Message) :
    Agree ((responder.receive message).2.foldl heard view) (responder.receive message).1.table ↔
      Told responder.table message := by
  have believed : ∀ i, view (slotId i) = true ↔
      (responder.table.slots i).any Storage.offered = true := fun i =>
    (agree (slotId i)).trans offers_slotId_iff
  cases message with
  | addStorage realpath description uid gid flags =>
      change Agree view (responder.table.mtpAddStorage realpath description uid gid flags).2 ↔ _
      rcases responder.table.mtpAddStorage_cases realpath description uid gid flags with
        same | ⟨i, rootPath, after, adds, -, free, slots⟩
      · rw [Told, same]
        exact iff_of_true agree (.inl rfl)
      · rw [Told, adds]
        have nonzero : slotId i ≠ 0 := by
          rw [slotId]
          omega
        have offered : (some (⟨rootPath, description, slotId i, flags, uid, gid⟩ : Storage)).any
            Storage.offered = (!hasFlag flags .notMounted && !hasFlag flags .locked) := rfl
        rw [agree.slot (i := i) (fun j other => by rw [slots, Function.update_of_ne other])
          fun _ _ => rfl, slots, Function.update_self, believed, free, offered]
        cases hasFlag flags .notMounted <;> cases hasFlag flags .locked <;> simp [nonzero]
  | removeStorage name =>
      change Agree view (responder.table.mtpRemoveStorage name).2 ↔ _
      rw [Told, hasNamed_iff, StorageTable.mtpRemoveStorage]
      cases found : responder.table.storageIndexByName name with
      | none => exact iff_of_true agree (by rintro ⟨_, ⟨⟩, _⟩)
      | some i =>
          dsimp only
          rw [agree.slot (i := i) (fun j other => if_neg other) fun _ _ => rfl, believed]
          simp [StorageTable.remove]
  | mount name =>
      rw [Responder.receive, Told, hasNamed_iff]
      cases found : responder.table.storageIndexByName name with
      | none => exact iff_of_true agree (by rintro ⟨_, ⟨⟩, _⟩)
      | some i =>
          obtain ⟨storage, here, -⟩ := StorageTable.storageIndexByName_eq_some_iff.mp found
          have isId := responder.table.numbered i storage here
          have changed := StorageTable.slots_changeFlags_self here (lowerFlag .notMounted)
          simp only [Responder.mountStore, here, if_true, Responder.eventOf, changed,
            Option.elim_some, StorageTable.reflag, isId, List.foldl_cons, List.foldl_nil, heard,
            agree.reflag here]
          simp [Storage.offered, Storage.has, here]
  | unmount name =>
      refine iff_of_true ?_ trivial
      rw [Responder.receive]
      cases found : responder.table.storageIndexByName name with
      | none => exact agree
      | some i =>
          obtain ⟨storage, here, -⟩ := StorageTable.storageIndexByName_eq_some_iff.mp found
          have isId := responder.table.numbered i storage here
          have changed := StorageTable.slots_changeFlags_self here (raiseFlag .notMounted)
          simp only [Responder.umountStore, here, if_true, Responder.eventOf, changed,
            Option.elim_some, StorageTable.reflag, isId, List.foldl_cons, List.foldl_nil, heard,
            agree.reflag here]
          simp [Storage.offered, Storage.has]
  | lock =>
      rw [Responder.receive, Responder.lockStore_eq,
        agree_eachStore_iff agree _ _ _ fun _ _ => rfl]
      refine iff_of_true (fun i storage here selected => ?_) trivial
      simp [Storage.offered, Storage.has, StorageTable.reflag]
  | unlock =>
      rw [Responder.receive, Responder.unlockStore_eq,
        agree_eachStore_iff agree _ _ _ fun _ _ => rfl, Told]
      refine forall_congr' fun i => forall_congr' fun storage => forall_congr' fun here => ?_
      simp [Storage.offered, Storage.has, StorageTable.reflag]

/-- The list of storages agrees with the table exactly when it has no gap. -/
theorem agree_storageIds_iff {table : StorageTable} :
    Agree (fun storageId => decide (storageId ∈ table.storageIds)) table ↔ table.Gapless := by
  constructor
  · intro agree i storage here offered j below
    have offers : table.offers (slotId i) := offers_slotId_iff.mpr (by rw [here]; exact offered)
    obtain ⟨k, other, there, isId, -, filled⟩ :=
      StorageTable.mem_storageIds_iff.mp (of_decide_eq_true ((agree (slotId i)).mpr offers))
    cases StorageTable.slotId_injective isId
    exact filled j below
  · intro gapless storageId
    rw [decide_eq_true_iff, StorageTable.mem_storageIds_iff]
    constructor
    · rintro ⟨i, storage, here, isId, offered, -⟩
      exact ⟨i, isId, by rw [here]; exact offered⟩
    · rintro ⟨i, isId, offered⟩
      obtain ⟨storage, here, offered⟩ := (Option.any_eq_true _ _).mp offered
      exact ⟨i, storage, here, isId, offered, gapless i storage here offered⟩

/-- The step leaves the host, if it knows the storages, with what is so. -/
def Announced (parties : Parties) : Event → Prop
  | .message message => parties.view = none ∨ Told parties.responder.table message
  | .getStorageIds => parties.responder.fsDb = none ∨ parties.responder.table.Gapless
  | _ => True

/-- An event leaves host and responder in agreement exactly when it is announced. -/
theorem agreed_partiesStep_iff {parties : Parties} (agreed : parties.Agreed) (event : Event) :
    (partiesStep parties event).Agreed ↔ Announced parties event := by
  cases event with
  | message message =>
      rw [Announced]
      cases known : parties.view with
      | none =>
          refine iff_of_true ?_ (.inl rfl)
          rw [Parties.Agreed, partiesStep]
          dsimp only
          rw [known]
          rintro _ ⟨⟩
      | some view =>
          rw [← agree_receive_iff (agreed view known) message, Parties.Agreed, partiesStep]
          dsimp only
          rw [known, Option.map_some]
          simp
  | openSession =>
      refine iff_of_true ?_ trivial
      rw [partiesStep]
      split
      · exact agreed
      · exact agreed
  | closeSession => exact iff_of_true (by rintro _ ⟨⟩) trivial
  | getStorageIds =>
      rw [Announced, partiesStep]
      cases opened : parties.responder.fsDb with
      | none => exact iff_of_true agreed (.inl rfl)
      | some db =>
          rw [← agree_storageIds_iff, Parties.Agreed]
          simp
  | change change => exact iff_of_true agreed trivial

/-- In every run of the two parties, what the host believes about the storages is always so
exactly when every step that changes a storage is announced: no storage is added ready for use or
removed while it is, none is mounted that is locked or unlocked that is not mounted, and no list
is asked for that a free slot cuts short. -/
theorem host_view_iff (events : List Event) :
    partiesMachine.Always Parties.Agreed partiesMachine.initial events ↔
      partiesMachine.StepsMeet Announced partiesMachine.initial events :=
  Machine.always_iff_stepsMeet_of_all Parties.Agreed (fun _ agreed => agreed)
    (fun _ event agreed => (agreed_partiesStep_iff agreed event).mpr)
    (fun _ event agreed misses still => misses ((agreed_partiesStep_iff agreed event).mp still))
    (by rintro _ ⟨⟩) events

end Nookobo.Mtp
