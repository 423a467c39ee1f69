import Mathlib.Data.Nat.Bitwise
import Nookobo.Mtp.Responses

/-!
# The storages

The table of the folders that the responder offers to the host. A storage goes
into the first free slot; its identifier is the number of the slot, so after a
removal it is given out again. `StorageTable` has no two storages of one name
and no identifier out of its place; the loops over the table find, by an
identifier or a name, the one storage that has it.
-/

namespace Nookobo.Mtp

/-- `MAX_STORAGE_NB`. -/
def maxStorageNb : Nat := 16

/-! ## Flags -/

/-- The flags of a storage. -/
inductive StorageFlag where
  | readOnly
  | notMounted
  | removable
  | lockable
  | locked
deriving DecidableEq, Repr

/-- The number of the flag's bit. -/
def StorageFlag.place : StorageFlag → Nat
  | .readOnly => 0
  | .notMounted => 1
  | .removable => 2
  | .lockable => 3
  | .locked => 4

/-- `UMTP_STORAGE_READONLY` and its siblings. -/
def StorageFlag.mask (flag : StorageFlag) : Nat := 2 ^ flag.place

/-- The test of a flag. -/
def hasFlag (flags : Nat) (flag : StorageFlag) : Bool := flags &&& flag.mask != 0

/-- `flags |= flag` -/
def raiseFlag (flag : StorageFlag) (flags : Nat) : Nat := flags ||| flag.mask

/-- `flags &= ~flag` of 32 bits. -/
def lowerFlag (flag : StorageFlag) (flags : Nat) : Nat := flags &&& (2 ^ 32 - (flag.mask + 1))

/-- The test of a flag reads its bit. -/
theorem hasFlag_eq (flags : Nat) (flag : StorageFlag) :
    hasFlag flags flag = flags.testBit flag.place := by
  rw [hasFlag, StorageFlag.mask, Nat.and_two_pow]
  have positive := Nat.two_pow_pos flag.place
  cases flags.testBit flag.place with
  | false => simp
  | true => simp

/-- Each flag has a bit of its own. -/
theorem place_injective {first second : StorageFlag} (same : first.place = second.place) :
    first = second := by
  cases first <;> cases second <;> first | rfl | cases same

/-- Raising a flag raises no other. -/
@[simp] theorem hasFlag_raiseFlag (flag other : StorageFlag) (flags : Nat) :
    hasFlag (raiseFlag flag flags) other = (hasFlag flags other || decide (flag = other)) := by
  rw [hasFlag_eq, hasFlag_eq, raiseFlag, StorageFlag.mask, Nat.testBit_or, Nat.testBit_two_pow]
  congr 1
  exact decide_eq_decide.mpr ⟨place_injective, congrArg _⟩

/-- Lowering a flag lowers no other. -/
@[simp] theorem hasFlag_lowerFlag (flag other : StorageFlag) (flags : Nat) :
    hasFlag (lowerFlag flag flags) other = (hasFlag flags other && !decide (flag = other)) := by
  have small : flag.mask < 2 ^ 32 := by cases flag <;> decide
  have inside : other.place < 32 := by cases other <;> decide
  rw [hasFlag_eq, hasFlag_eq, lowerFlag, Nat.testBit_and, Nat.testBit_two_pow_sub_succ small,
    StorageFlag.mask, Nat.testBit_two_pow, decide_eq_true inside, Bool.true_and]
  congr 2
  exact decide_eq_decide.mpr ⟨place_injective, congrArg _⟩

/-! ## The table -/

/-- `mtp_storage`. A user or a group of -1 is the default one. -/
structure Storage where
  rootPath : List UInt8
  description : List UInt8
  storageId : Nat
  flags : Nat
  uid : Int
  gid : Int
deriving DecidableEq, Repr

/-- The storage has the flag. -/
def Storage.has (storage : Storage) (flag : StorageFlag) : Bool := hasFlag storage.flags flag

/-- A storage that the host is to see. -/
def Storage.offered (storage : Storage) : Bool :=
  !storage.has .notMounted && !storage.has .locked

/-- The identifier of the storage in a slot. -/
def slotId (i : Nat) : Nat := 0xFFFF0000 + (i + 1)

/-- `storages`; a slot without a root path is `none`. -/
structure StorageTable where
  slots : Nat → Option Storage
  inside : ∀ i storage, slots i = some storage → i < maxStorageNb
  numbered : ∀ i storage, slots i = some storage → storage.storageId = slotId i
  named : ∀ i j first second, slots i = some first → slots j = some second →
    first.description = second.description → i = j

/-- The table at the start. -/
def StorageTable.empty : StorageTable where
  slots := fun _ => none
  inside := by rintro _ _ ⟨⟩
  numbered := by rintro _ _ ⟨⟩
  named := by rintro _ _ _ _ ⟨⟩

namespace StorageTable

variable (table : StorageTable)

/-- The loop that the lookups have in common. -/
def indexOf (p : Storage → Bool) : Option Nat :=
  (List.range maxStorageNb).find? fun i => (table.slots i).any p

/-- The storage that a loop over the table finds. -/
def find (p : Storage → Bool) : Option Storage := (table.indexOf p).bind table.slots

/-- `mtp_get_storage_index_by_name`; `none` is -1. -/
def storageIndexByName (name : List UInt8) : Option Nat :=
  table.indexOf fun storage => storage.description == name

/-- `mtp_get_storage_id_by_name` -/
def storageIdByName (name : List UInt8) : Nat :=
  (table.find fun storage => storage.description == name).elim allOnes Storage.storageId

/-- `mtp_get_storage_index_by_id`; `none` is -1. -/
def storageIndexById (storageId : Nat) : Option Nat :=
  table.indexOf fun storage => storage.storageId == storageId

/-- `mtp_get_storage_root` -/
def storageRoot (storageId : Nat) : Option (List UInt8) :=
  (table.find fun storage => storage.storageId == storageId).map Storage.rootPath

/-- The storages that `get_entry_by_handle` accepts. -/
def rooted (storageId : Nat) : Bool := (table.storageRoot storageId).isSome

/-- `mtp_get_storage_flags` -/
def storageFlags (storageId : Nat) : Nat :=
  (table.find fun storage => storage.storageId == storageId).elim allOnes Storage.flags

/-- The loop of `mtp_op_GetStorageIDs`, within a number of rounds: it ends at the first slot
that is free. -/
def storageIdsFrom : Nat → Nat → List Nat
  | 0, _ => []
  | rounds + 1, i =>
      match table.slots i with
      | none => []
      | some storage =>
          if storage.offered then storage.storageId :: storageIdsFrom rounds (i + 1)
          else storageIdsFrom rounds (i + 1)

/-- What `GetStorageIDs` answers with: the storages up to the first free slot. -/
def storageIds : List Nat := table.storageIdsFrom maxStorageNb 0

/-! ## Lookups -/

variable {table}

/-- What a loop finds is a storage that passes its test. -/
theorem indexOf_eq_some {p : Storage → Bool} {i : Nat} (found : table.indexOf p = some i) :
    ∃ storage, table.slots i = some storage ∧ p storage = true := by
  have selected := List.find?_some found
  exact (Option.any_eq_true _ _).mp selected

/-- A loop finds nothing exactly when no storage passes its test. -/
theorem indexOf_eq_none_iff {p : Storage → Bool} :
    table.indexOf p = none ↔ ∀ i storage, table.slots i = some storage → p storage = false := by
  rw [indexOf, List.find?_eq_none]
  constructor
  · intro none' i storage here
    have missed := none' i (List.mem_range.mpr (table.inside i storage here))
    rw [here] at missed
    exact Bool.eq_false_iff.mpr missed
  · intro none' i _ found
    obtain ⟨storage, here, selected⟩ := (Option.any_eq_true _ _).mp found
    rw [none' i storage here] at selected
    cases selected

/-- A test that one storage at most passes finds it. -/
theorem indexOf_eq_some_iff {p : Storage → Bool}
    (unique : ∀ i j first second, table.slots i = some first → table.slots j = some second →
      p first = true → p second = true → i = j) {i : Nat} :
    table.indexOf p = some i ↔ ∃ storage, table.slots i = some storage ∧ p storage = true := by
  refine ⟨indexOf_eq_some, ?_⟩
  rintro ⟨storage, here, selected⟩
  cases found : table.indexOf p with
  | none => rw [indexOf_eq_none_iff.mp found i storage here] at selected; cases selected
  | some j =>
      obtain ⟨other, there, selected'⟩ := indexOf_eq_some found
      rw [unique i j storage other here there selected selected']

/-- No two slots have one identifier. -/
theorem slotId_injective {i j : Nat} (same : slotId i = slotId j) : i = j := by
  rw [slotId, slotId] at same
  omega

/-- An identifier finds the storage that has it. -/
theorem storageIndexById_eq_some_iff {storageId i : Nat} :
    table.storageIndexById storageId = some i ↔
      ∃ storage, table.slots i = some storage ∧ storage.storageId = storageId := by
  rw [storageIndexById, indexOf_eq_some_iff]
  · simp
  · intro i j first second one two isFirst isSecond
    have same := (eq_of_beq isFirst).trans (eq_of_beq isSecond).symm
    rw [table.numbered i first one, table.numbered j second two] at same
    exact slotId_injective same

/-- A name finds the storage that has it. -/
theorem storageIndexByName_eq_some_iff {name : List UInt8} {i : Nat} :
    table.storageIndexByName name = some i ↔
      ∃ storage, table.slots i = some storage ∧ storage.description = name := by
  rw [storageIndexByName, indexOf_eq_some_iff]
  · simp
  · intro i j first second one two isFirst isSecond
    exact table.named i j first second one two
      ((eq_of_beq isFirst).trans (eq_of_beq isSecond).symm)

/-- No storage has the identifier that stands for none. -/
theorem slotId_ne_allOnes {i : Nat} (inside : i < maxStorageNb) : slotId i ≠ allOnes := by
  rw [slotId, allOnes]
  rw [maxStorageNb] at inside
  omega

/-- A name has no identifier exactly when no storage has the name. -/
theorem storageIdByName_eq_allOnes_iff {name : List UInt8} :
    table.storageIdByName name = allOnes ↔
      ∀ i storage, table.slots i = some storage → storage.description ≠ name := by
  rw [storageIdByName, find, ← storageIndexByName]
  cases found : table.storageIndexByName name with
  | none =>
      refine iff_of_true rfl fun i storage here => ?_
      exact fun isName => absurd (indexOf_eq_none_iff.mp found i storage here) (by simp [isName])
  | some i =>
      obtain ⟨storage, here, isName⟩ := storageIndexByName_eq_some_iff.mp found
      rw [Option.bind_some, here, Option.elim_some, table.numbered i storage here]
      exact iff_of_false (slotId_ne_allOnes (table.inside i storage here))
        fun none' => none' i storage here isName

/-- What the loop lists: the storages offered, in the slots up to the first free one. -/
theorem mem_storageIdsFrom_iff {storageId rounds start : Nat} :
    storageId ∈ table.storageIdsFrom rounds start ↔ ∃ i storage, table.slots i = some storage ∧
      storageId = slotId i ∧ storage.offered = true ∧ start ≤ i ∧ i < start + rounds ∧
      ∀ j, start ≤ j → j < i → table.slots j ≠ none := by
  induction rounds generalizing start with
  | zero =>
      refine iff_of_false List.not_mem_nil ?_
      rintro ⟨i, storage, -, -, -, atLeast, below, -⟩
      omega
  | succ rounds ih =>
      rw [storageIdsFrom]
      cases here : table.slots start with
      | none =>
          refine iff_of_false List.not_mem_nil ?_
          rintro ⟨i, storage, there, -, -, atLeast, -, filled⟩
          rcases Nat.eq_or_lt_of_le atLeast with rfl | later
          · rw [here] at there
            cases there
          · exact filled start (Nat.le_refl _) later here
      | some first =>
          have later : storageId ∈ table.storageIdsFrom rounds (start + 1) ↔
              ∃ i storage, table.slots i = some storage ∧ storageId = slotId i ∧
                storage.offered = true ∧ start < i ∧ i < start + (rounds + 1) ∧
                ∀ j, start ≤ j → j < i → table.slots j ≠ none := by
            rw [ih]
            refine exists_congr fun i => exists_congr fun storage => ?_
            refine and_congr_right fun _ => and_congr_right fun _ => and_congr_right fun _ => ?_
            refine and_congr_right fun after => and_congr (by omega) ⟨?_, ?_⟩
            · intro filled j atLeast below
              rcases Nat.eq_or_lt_of_le atLeast with rfl | above
              · rw [here]
                exact Option.some_ne_none first
              · exact filled j above below
            · exact fun filled j above below => filled j (Nat.le_of_lt above) below
          have now : (∃ i storage, table.slots i = some storage ∧ storageId = slotId i ∧
                storage.offered = true ∧ start ≤ i ∧ i < start + (rounds + 1) ∧
                ∀ j, start ≤ j → j < i → table.slots j ≠ none) ↔
              storageId = slotId start ∧ first.offered = true ∨
                storageId ∈ table.storageIdsFrom rounds (start + 1) := by
            rw [later]
            constructor
            · rintro ⟨i, storage, there, isId, offered, atLeast, rest⟩
              rcases Nat.eq_or_lt_of_le atLeast with rfl | above
              · rw [here] at there
                cases there
                exact .inl ⟨isId, offered⟩
              · exact .inr ⟨i, storage, there, isId, offered, above, rest⟩
            · rintro (⟨isId, offered⟩ | ⟨i, storage, there, isId, offered, above, rest⟩)
              · exact ⟨start, first, here, isId, offered, Nat.le_refl _, by omega,
                  fun j atLeast below => absurd below (Nat.not_lt_of_le atLeast)⟩
              · exact ⟨i, storage, there, isId, offered, Nat.le_of_lt above, rest⟩
          rw [now]
          dsimp only
          split
          · next offered =>
            rw [List.mem_cons, table.numbered start first here]
            exact or_congr_left (and_iff_left offered).symm
          · next hidden => exact ⟨.inr, fun either => either.resolve_left fun both => hidden both.2⟩

/-- An identifier that `mtp_op_GetStorageIDs` sends. -/
theorem mem_storageIds_iff {storageId : Nat} :
    storageId ∈ table.storageIds ↔ ∃ i storage, table.slots i = some storage ∧
      storageId = slotId i ∧ storage.offered = true ∧
      ∀ j, j < i → table.slots j ≠ none := by
  rw [storageIds, mem_storageIdsFrom_iff]
  refine exists_congr fun i => exists_congr fun storage => and_congr_right fun here => ?_
  have inside := table.inside i storage here
  refine and_congr_right fun _ => and_congr_right fun _ => ?_
  simp only [Nat.zero_le, Nat.zero_add, inside, true_and, forall_const]

/-! ## Changes -/

variable (table)

/-- A storage in a slot. -/
def insert (i : Nat) (storage : Storage) (inside : i < maxStorageNb)
    (isId : storage.storageId = slotId i)
    (isNew : ∀ j other, table.slots j = some other →
      other.description ≠ storage.description) : StorageTable where
  slots := Function.update table.slots i (some storage)
  inside := by
    intro j other here
    by_cases same : j = i
    · exact same ▸ inside
    · rw [Function.update_of_ne same] at here
      exact table.inside j other here
  numbered := by
    intro j other here
    by_cases same : j = i
    · subst same
      rw [Function.update_self] at here
      cases here
      exact isId
    · rw [Function.update_of_ne same] at here
      exact table.numbered j other here
  named := by
    intro j k first second one two isName
    by_cases isFirst : j = i
    · by_cases isSecond : k = i
      · rw [isFirst, isSecond]
      · rw [isFirst, Function.update_self] at one
        rw [Function.update_of_ne isSecond] at two
        cases one
        exact absurd isName.symm (isNew k second two)
    · rw [Function.update_of_ne isFirst] at one
      by_cases isSecond : k = i
      · rw [isSecond, Function.update_self] at two
        cases two
        exact absurd isName (isNew j first one)
      · rw [Function.update_of_ne isSecond] at two
        exact table.named j k first second one two isName

/-- A slot is free again. -/
def remove (i : Nat) : StorageTable where
  slots := fun j => if j = i then none else table.slots j
  inside := by
    intro j storage here
    split at here
    · cases here
    · exact table.inside j storage here
  numbered := by
    intro j storage here
    split at here
    · cases here
    · exact table.numbered j storage here
  named := by
    intro j k first second one two isName
    split at one
    · cases one
    · split at two
      · cases two
      · exact table.named j k first second one two isName

/-- The flags of a storage with others in their place. -/
def reflag (f : Nat → Nat) (storage : Storage) : Storage :=
  { storage with flags := f storage.flags }

/-- The flags in one slot are changed. -/
def changeFlags (i : Nat) (f : Nat → Nat) : StorageTable where
  slots := fun j => if j = i then (table.slots j).map (reflag f) else table.slots j
  inside := by
    intro j storage here
    split at here
    · obtain ⟨old, there, -⟩ := Option.map_eq_some_iff.mp here
      exact table.inside j old there
    · exact table.inside j storage here
  numbered := by
    intro j storage here
    split at here
    · obtain ⟨old, there, rfl⟩ := Option.map_eq_some_iff.mp here
      exact table.numbered j old there
    · exact table.numbered j storage here
  named := by
    have older : ∀ {j : Nat} {storage : Storage},
        (if j = i then (table.slots j).map (reflag f) else table.slots j) = some storage →
          ∃ old, table.slots j = some old ∧ old.description = storage.description := by
      intro j storage here
      split at here
      · obtain ⟨old, there, rfl⟩ := Option.map_eq_some_iff.mp here
        exact ⟨old, there, rfl⟩
      · exact ⟨storage, here, rfl⟩
    intro j k first second one two isName
    obtain ⟨old, here, sameName⟩ := older one
    obtain ⟨old', here', sameName'⟩ := older two
    exact table.named j k old old' here here' (sameName.trans (isName.trans sameName'.symm))

variable {table} in
/-- A change of flags at a slot is a change of its storage. -/
theorem slots_changeFlags_self {i : Nat} {storage : Storage} (here : table.slots i = some storage)
    (f : Nat → Nat) : (table.changeFlags i f).slots i = some (reflag f storage) := by
  change (if i = i then (table.slots i).map (reflag f) else table.slots i) = _
  rw [if_pos rfl, here]
  rfl

/-- A change of flags at a slot leaves the others alone. -/
theorem slots_changeFlags_of_ne {i j : Nat} (other : j ≠ i) (f : Nat → Nat) :
    (table.changeFlags i f).slots j = table.slots j := if_neg other

/-- `mtp_add_storage`; `realpath` is what that gives for the path. -/
def mtpAddStorage (realpath : Option (List UInt8)) (description : List UInt8) (uid gid : Int)
    (flags : Nat) : Nat × StorageTable :=
  if isNew : table.storageIdByName description = allOnes then
    match isFree : (List.range maxStorageNb).find? fun i => (table.slots i).isNone with
    | none => (0, table)
    | some i =>
        match realpath with
        | none => (0, table)
        | some rootPath =>
            let storage : Storage := ⟨rootPath, description, slotId i, flags, uid, gid⟩
            (storage.storageId, table.insert i storage
              (List.mem_range.mp (List.mem_of_find?_eq_some isFree)) rfl
              (storageIdByName_eq_allOnes_iff.mp isNew))
  else (0, table)

/-- `mtp_remove_storage` -/
def mtpRemoveStorage (name : List UInt8) : Int × StorageTable :=
  match table.storageIndexByName name with
  | none => (-1, table)
  | some i => (0, table.remove i)

/-- What a storage is added as: in a free slot, unless its name is taken, its path is not there
or there is no room. -/
theorem mtpAddStorage_cases (realpath : Option (List UInt8)) (description : List UInt8)
    (uid gid : Int) (flags : Nat) :
    table.mtpAddStorage realpath description uid gid flags = (0, table) ∨
    ∃ i rootPath after, table.mtpAddStorage realpath description uid gid flags =
        (slotId i, after) ∧ realpath = some rootPath ∧ table.slots i = none ∧
      after.slots = Function.update table.slots i
        (some ⟨rootPath, description, slotId i, flags, uid, gid⟩) := by
  rw [mtpAddStorage]
  split
  · split
    · exact .inl rfl
    · next i isFree =>
      split
      · exact .inl rfl
      · next rootPath =>
        have free := List.find?_some isFree
        exact .inr ⟨i, rootPath, _, rfl, rfl, Option.isNone_iff_eq_none.mp free, rfl⟩
  · exact .inl rfl

end StorageTable

/-! ## Access -/

/-- `check_handle_access` with the entry that it is given or finds: the response it refuses with. -/
def checkHandleAccess (table : StorageTable) (entry : Option FsEntry) (wraccess : Bool) :
    Option Response :=
  match entry with
  | none => some .invalidObjectHandle
  | some entry =>
      let flags := table.storageFlags entry.storageId
      if flags = allOnes then some .invalidStorageId
      else if hasFlag flags .locked then some .storeNotAvailable
      else if hasFlag flags .readOnly && wraccess then some .storeReadOnly
      else none

end Nookobo.Mtp
