import Nookobo.Mtp.Sanitize
import Nookobo.Mtp.Sessions

/-!
# Paths of objects

`build_full_path` walks from an entry to its parents by their handles and
writes the names from the end of the path to its front. In a session whose new
objects go into folders that are there, the walk ends. What is returned depends
on `realpath` too: where that finds nothing and the folder is gone as well, or
`sanitize_name` refuses the name, a null path is compared with the root. Where
no symbolic link is on the way, two objects of one storage have one path only
if they are the same object or a folder above one of them is gone: the walk
stops at a folder that is deleted, so what was in it is taken for a child of
the storage's root.
-/

namespace Nookobo.Mtp

open Nookobo.Semantics FsHandlesDb

/-- What `realpath` returns; `noEntry` is `ENOENT`. -/
inductive Resolved where
  | path (bytes : List UInt8)
  | noEntry
  | failed
deriving DecidableEq, Repr

/-- What `build_full_path` returns. It crashes where a null path is compared with the root. -/
inductive FullPath where
  | path (bytes : List UInt8)
  | null
  | crash
deriving DecidableEq, Repr

namespace FsHandlesDb

variable (rooted : Nat → Bool) (db : FsHandlesDb)

/-- The next `curentry` of the walk. -/
def parentEntry (entry : FsEntry) : Option FsEntry :=
  if entry.parent ≠ 0 ∧ entry.parent ≠ allOnes then
    (db.getEntryByHandle rooted entry.parent).bind fun i => db.entries[i]?
  else none

/-- The entries of the walk, within a number of rounds. -/
def lineage : Nat → FsEntry → Option (List FsEntry)
  | 0, _ => none
  | rounds + 1, entry =>
      match parentEntry rooted db entry with
      | none => some [entry]
      | some parent => (lineage rounds parent).map (entry :: ·)

/-- The names, each behind a slash, the first entry of the walk last. -/
def pathOf (entries : List FsEntry) : List UInt8 :=
  entries.foldl (fun path entry => slash :: (entry.name ++ path)) []

end FsHandlesDb

/-- The part of `build_full_path` that is under `if (root_path)`. -/
def resolvePath (realpath : List UInt8 → Resolved) (rootPath fullPath name : List UInt8) :
    FullPath :=
  let checked (retpath : List UInt8) : FullPath :=
    if rootPath.isPrefixOf retpath then .path retpath else .null
  match realpath fullPath with
  | .path retpath => checked retpath
  | .failed => .null
  | .noEntry =>
      match realpath (fullPath.take (fullPath.length - name.length)) with
      | .path realparentpath =>
          match sanitizeName name name.length with
          | (1, sanitized) => checked (realparentpath ++ slash :: sanitized)
          | _ => .crash
      | _ => .crash

/-- `build_full_path`; `none` where the walk does not end. -/
def buildFullPath (rooted : Nat → Bool) (db : FsHandlesDb) (realpath : List UInt8 → Resolved)
    (rootPath : Option (List UInt8)) (entry : FsEntry) : Option FullPath :=
  (db.lineage rooted (db.entries.length + 1) entry).map fun entries =>
    match rootPath with
    | none => .path (pathOf entries)
    | some rootPath => resolvePath realpath rootPath (rootPath ++ pathOf entries) entry.name

/-! ## Where the objects are -/

/-- A new object goes to the top of its storage or into a folder of the same storage. -/
def ParentKnown (state : HandleState) : Request → Prop
  | .add _ parent storageId => parent ≠ 0 →
      ∃ (i : Nat) (folder : FsEntry), state.db.entries[i]? = some folder ∧
        folder.handle = parent ∧ folder.storageId = storageId
  | _ => True

/-- Each object is at the top of its storage or in an older folder of the storage, and has a
name that a file can have. -/
structure Placed (db : FsHandlesDb) : Prop where
  inFolder : ∀ (i : Nat) (entry : FsEntry), db.entries[i]? = some entry → entry.parent ≠ 0 →
    ∃ (j : Nat) (folder : FsEntry), db.entries[j]? = some folder ∧
      folder.handle = entry.parent ∧ folder.storageId = entry.storageId ∧
      folder.handle < entry.handle
  named : ∀ (i : Nat) (entry : FsEntry), db.entries[i]? = some entry → entry.handle ≠ 0 →
    FileName entry.name

/-- The same handle and the same place, and still a name. -/
def SameSpot (entry entry' : FsEntry) : Prop :=
  entry'.handle = entry.handle ∧ entry'.parent = entry.parent ∧
    entry'.storageId = entry.storageId ∧ (FileName entry.name → FileName entry'.name)

/-- A change that keeps every entry in its spot keeps the entries placed. -/
theorem Placed.change {db after : FsHandlesDb} (placed : Placed db) (f : Nat → FsEntry → FsEntry)
    (entries : ∀ i : Nat, after.entries[i]? = (db.entries[i]?).map (f i))
    (same : ∀ i entry, SameSpot entry (f i entry)) : Placed after := by
  have older : ∀ {i : Nat} {entry : FsEntry}, after.entries[i]? = some entry →
      ∃ old, db.entries[i]? = some old ∧ f i old = entry := by
    intro i entry here
    rw [entries] at here
    exact Option.map_eq_some_iff.mp here
  constructor
  · intro i entry here nonzero
    obtain ⟨old, there, rfl⟩ := older here
    obtain ⟨handle, parent, storage, -⟩ := same i old
    rw [parent] at nonzero ⊢
    obtain ⟨j, folder, above, isParent, isStorage, less⟩ := placed.inFolder i old there nonzero
    obtain ⟨handle', -, storage', -⟩ := same j folder
    refine ⟨j, f j folder, by rw [entries, above]; rfl, handle'.trans isParent, ?_, ?_⟩
    · rw [storage, storage', isStorage]
    · rw [handle, handle']
      exact less
  · intro i entry here nonzero
    obtain ⟨old, there, rfl⟩ := older here
    obtain ⟨handle, -, -, named⟩ := same i old
    exact named (placed.named i old there (handle ▸ nonzero))

/-- A new entry in a known folder, with a name, is placed. -/
theorem Placed.linkEntry {db : FsHandlesDb} (placed : Placed db) {entry : FsEntry}
    (known : entry.parent ≠ 0 → ∃ (i : Nat) (folder : FsEntry), db.entries[i]? = some folder ∧
      folder.handle = entry.parent ∧ folder.storageId = entry.storageId ∧
      folder.handle < entry.handle)
    (named : entry.handle ≠ 0 → FileName entry.name) : Placed (db.linkEntry entry) := by
  have kept : ∀ {i : Nat} {other : FsEntry}, db.entries[i]? = some other →
      (db.linkEntry entry).entries[i]? = some other := fun here =>
    getElem?_linkEntry_eq_some.mpr (.inl here)
  constructor
  · intro i other here nonzero
    rcases getElem?_linkEntry_eq_some.mp here with old | ⟨-, rfl⟩
    · obtain ⟨j, folder, above, rest⟩ := placed.inFolder i other old nonzero
      exact ⟨j, folder, kept above, rest⟩
    · obtain ⟨j, folder, above, rest⟩ := known nonzero
      exact ⟨j, folder, kept above, rest⟩
  · intro i other here
    rcases getElem?_linkEntry_eq_some.mp here with old | ⟨-, rfl⟩
    · exact placed.named i other old
    · exact named

/-- A change of the object with a handle that keeps its spot keeps the entries placed. -/
theorem Placed.onHandle {state : HandleState} (placed : Placed state.db) (handle : Nat)
    {change : Nat → FsHandlesDb → FsHandlesDb} {f : FsEntry → FsEntry}
    (entries : ∀ i j : Nat, (change i state.db).entries[j]? =
      if i = j then (state.db.entries[j]?).map f else state.db.entries[j]?)
    (same : ∀ entry, SameSpot entry (f entry)) :
    Placed (state.onHandle handle change).db := by
  rw [HandleState.onHandle]
  split
  · exact placed
  · next i _ =>
    refine placed.change (fun j => if i = j then f else id) (fun j => ?_) fun j entry => ?_
    · rw [entries]
      split <;> simp
    · split
      · exact same entry
      · exact ⟨rfl, rfl, rfl, id⟩

/-- Every request in order keeps the entries placed. -/
theorem Placed.step {state : HandleState} {registry : Registry CatalogueObject}
    (represents : Represents state.db registry) (placed : Placed state.db) {request : Request}
    (proper : request.Proper) (known : ParentKnown state request) :
    Placed (handleStep state request).db := by
  cases request with
  | mountRoot storageId =>
      exact placed.linkEntry (fun nonzero => absurd rfl nonzero) fun nonzero => absurd rfl nonzero
  | add fileinfo parent storageId =>
      change Placed (state.db.addEntry fileinfo parent storageId).2
      rw [FsHandlesDb.addEntry]
      split
      · exact placed
      · have same : Placed { state.db with nextHandle := (state.db.nextHandle + 1) % 2 ^ 32 } :=
          ⟨placed.inFolder, placed.named⟩
        refine same.linkEntry (fun nonzero => ?_) fun _ => proper
        obtain ⟨i, folder, here, isParent, isStorage⟩ := known nonzero
        exact ⟨i, folder, here, isParent, isStorage, represents.given i folder here⟩
  | discard handle =>
      exact placed.onHandle handle (fun i j => getElem?_updateEntry state.db i j _)
        fun _ => ⟨rfl, rfl, rfl, id⟩
  | rename handle newFilename =>
      refine placed.onHandle handle (f := withName newFilename) (fun i j => ?_)
        fun _ => ⟨rfl, rfl, rfl, fun _ => proper.2⟩
      rw [entries_renameEntry]
      exact getElem?_updateEntry state.db i j _
  | resize handle size =>
      exact placed.onHandle handle (fun i j => getElem?_updateEntry state.db i j _)
        fun _ => ⟨rfl, rfl, rfl, id⟩
  | unmount storageId =>
      refine placed.change
        (fun _ entry => if stored storageId entry then deleted entry else entry)
        (getElem?_umountStore represents.wellFormed storageId) fun i entry => ?_
      split <;> exact ⟨rfl, rfl, rfl, id⟩
  | setRooted storageId present => exact placed

/-! ## The walk -/

section Walk

variable {rooted : Nat → Bool} {db : FsHandlesDb}

/-- The parent that is found is a live entry with the handle of the parent field. -/
theorem parentEntry_eq_some {entry folder : FsEntry}
    (found : parentEntry rooted db entry = some folder) :
    entry.parent ≠ 0 ∧ (∃ i : Nat, db.entries[i]? = some folder) ∧
      folder.isDeleted = false ∧ folder.handle = entry.parent ∧
      rooted folder.storageId = true := by
  rw [parentEntry] at found
  split at found
  · next inFolder =>
    obtain ⟨i, searched, here⟩ := Option.bind_eq_some_iff.mp found
    obtain ⟨other, there, selected⟩ := getEntryByHandle_eq_some searched
    rw [here] at there
    cases there
    obtain ⟨live, isHandle, hasRoot⟩ := handled_iff.mp selected
    exact ⟨inFolder.1, ⟨i, here⟩, live, isHandle, hasRoot⟩
  · cases found

/-- Handles get smaller along the walk, so it ends within the number of a handle. -/
theorem lineage_ends (olderParents : ∀ (i : Nat) (entry : FsEntry), db.entries[i]? = some entry →
      entry.parent ≠ 0 → entry.parent < entry.handle)
    {rounds : Nat} {entry : FsEntry} (here : ∃ i : Nat, db.entries[i]? = some entry)
    (enough : entry.handle < rounds) :
    ∃ entries, db.lineage rooted rounds entry = some entries := by
  induction rounds generalizing entry with
  | zero => exact absurd enough (Nat.not_lt_zero _)
  | succ rounds ih =>
      rw [lineage]
      cases found : parentEntry rooted db entry with
      | none => exact ⟨_, rfl⟩
      | some folder =>
          obtain ⟨nonzero, there, -, isParent, -⟩ := parentEntry_eq_some found
          obtain ⟨i, here⟩ := here
          have older := olderParents i entry here nonzero
          obtain ⟨entries, walked⟩ := ih there (by omega)
          exact ⟨entry :: entries, by rw [Option.map_eq_some_iff]; exact ⟨entries, walked, rfl⟩⟩

end Walk

/-- Names behind slashes, from the top down. -/
def joined : List (List UInt8) → List UInt8
  | [] => []
  | name :: rest => slash :: (name ++ joined rest)

/-- The path of a walk is its names from the top, joined by slashes. -/
theorem pathOf_eq_joined (entries : List FsEntry) :
    pathOf entries = joined (entries.map FsEntry.name).reverse := by
  have onto : ∀ (entries : List FsEntry) (names : List (List UInt8)),
      entries.foldl (fun path entry => slash :: (entry.name ++ path)) (joined names) =
        joined ((entries.map FsEntry.name).reverse ++ names) := by
    intro entries
    induction entries with
    | nil => exact fun _ => rfl
    | cons entry rest ih =>
        intro names
        rw [List.foldl_cons, List.map_cons, List.reverse_cons, List.append_assoc]
        exact ih (entry.name :: names)
  rw [pathOf, ← List.append_nil (entries.map FsEntry.name).reverse]
  exact onto entries []

/-- Joining names in two parts is joining the parts. -/
theorem joined_append (names names' : List (List UInt8)) :
    joined (names ++ names') = joined names ++ joined names' := by
  induction names with
  | nil => rfl
  | cons name rest ih =>
      rw [List.cons_append, joined, ih, joined, List.cons_append, List.append_assoc]

/-- The path of an object is its folder's with its name behind it. -/
theorem pathOf_cons (entry : FsEntry) (walk : List FsEntry) :
    pathOf (entry :: walk) = pathOf walk ++ slash :: entry.name := by
  rw [pathOf_eq_joined, List.map_cons, List.reverse_cons, joined_append, ← pathOf_eq_joined,
    joined, joined, List.append_nil]

section Injectivity

variable {rooted : Nat → Bool} {db : FsHandlesDb} {registry : Registry CatalogueObject}

/-- The walk gets to the top of the storage. -/
def ReachesTop (entries : List FsEntry) : Prop := ∀ top ∈ entries.getLast?, top.parent = 0

/-- A walk ends at the top or goes on with the folder. -/
theorem lineage_cons {rounds : Nat} {entry : FsEntry} {entries : List FsEntry}
    (walked : db.lineage rooted (rounds + 1) entry = some entries) :
    (parentEntry rooted db entry = none ∧ entries = [entry]) ∨
      ∃ folder rest, parentEntry rooted db entry = some folder ∧
        db.lineage rooted rounds folder = some rest ∧ entries = entry :: rest := by
  rw [lineage] at walked
  split at walked
  · next top =>
    cases walked
    exact .inl ⟨top, rfl⟩
  · next folder found =>
    obtain ⟨rest, above, rfl⟩ := Option.map_eq_some_iff.mp walked
    exact .inr ⟨folder, rest, found, above, rfl⟩

end Injectivity

/-! ## Whole sessions -/

/-- A request as the operations make it: the new objects go into folders that are there. -/
def Regular (state : HandleState) (request : Request) : Prop :=
  Allowed state request ∧ ParentKnown state request

/-- What a session keeps, as far as paths are concerned. -/
structure PathInvariant (state : HandleState) : Prop where
  represents : ∃ catalogue : CatalogueState, Represents state.db catalogue.registry ∧
    state.rooted = catalogue.rooted
  placed : Placed state.db
  numbered : state.db.nextHandle ≤ state.db.entries.length + 1
  bounded : state.db.nextHandle < 2 ^ 32

/-- The empty database has paths. -/
theorem pathInvariant_initial (rooted : Nat → Bool) :
    PathInvariant (handleMachine rooted).initial where
  represents := ⟨⟨Registry.empty 1, rooted⟩, represents_initFsDb, rfl⟩
  placed := ⟨(fun _ _ here => by cases here), (fun _ _ here => by cases here)⟩
  numbered := Nat.le_refl _
  bounded := show 1 < 2 ^ 32 by decide

/-- A request in order keeps what the paths rest on. -/
theorem PathInvariant.step {state : HandleState} (invariant : PathInvariant state)
    {request : Request} (regular : Regular state request) :
    PathInvariant (handleStep state request) := by
  obtain ⟨⟨proper, few⟩, known⟩ := regular
  obtain ⟨catalogue, represents, sameRoots⟩ := invariant.represents
  have grown := nextHandle_handleStep_le state request
  refine ⟨⟨_, represents.step sameRoots proper few⟩, invariant.placed.step represents proper known,
    nextHandle_le_handleStep invariant.numbered request, Nat.lt_of_le_of_lt grown ?_⟩
  split <;> omega

/-- Every regular session keeps it. -/
theorem PathInvariant.run (rooted : Nat → Bool) {requests : List Request}
    (regular : (handleMachine rooted).StepsMeet Regular (handleMachine rooted).initial requests) :
    PathInvariant (handlesAfter rooted requests) :=
  Machine.run_of_invariant PathInvariant (fun _ _ holds allowed => holds.step allowed)
    (pathInvariant_initial rooted) regular

/-- The walk of `build_full_path` ends. -/
theorem PathInvariant.lineage_ends {state : HandleState} (invariant : PathInvariant state)
    {i : Nat} {entry : FsEntry} (here : state.db.entries[i]? = some entry) :
    ∃ entries, state.db.lineage state.rooted (state.db.entries.length + 1) entry =
      some entries := by
  obtain ⟨catalogue, represents, -⟩ := invariant.represents
  refine Nookobo.Mtp.lineage_ends (fun j child there nonzero => ?_) ⟨i, here⟩ ?_
  · obtain ⟨_, _, _, isParent, _, older⟩ := invariant.placed.inFolder j child there nonzero
    exact isParent ▸ older
  · exact Nat.lt_of_lt_of_le (represents.given i entry here) invariant.numbered

/-! ## What is returned -/

section Returned

variable {realpath : List UInt8 → Resolved} {rootPath : List UInt8}

/-- The path of a child goes on from its folder's. -/
theorem append_pathOf_cons (rootPath : List UInt8) (entry : FsEntry) (walk : List FsEntry) :
    rootPath ++ pathOf (entry :: walk) = (rootPath ++ pathOf walk) ++ slash :: entry.name := by
  rw [pathOf_cons, List.append_assoc]

/-- A path without the name of its object is its folder's, with a slash behind. -/
theorem take_child (folderPath name : List UInt8) :
    (folderPath ++ slash :: name).take ((folderPath ++ slash :: name).length - name.length) =
      folderPath ++ [slash] := by
  have split : folderPath ++ slash :: name = (folderPath ++ [slash]) ++ name := by
    rw [List.append_assoc, List.singleton_append]
  rw [split, List.length_append, Nat.add_sub_cancel, List.take_left]

/-- Where `build_full_path` is left with a null path: nothing is found at the path of the object,
and either not its folder or `sanitize_name` refuses its name. -/
def Unresolved (realpath : List UInt8 → Resolved) (folderPath name : List UInt8) : Prop :=
  realpath (folderPath ++ slash :: name) = .noEntry ∧
    ((∀ folder, realpath (folderPath ++ [slash]) ≠ .path folder) ∨
      ∀ sanitized, sanitizeName name name.length ≠ (1, sanitized))

/-- Resolving a path crashes exactly where neither the path nor its folder is found. -/
theorem resolvePath_eq_crash_iff {folderPath name : List UInt8} :
    resolvePath realpath rootPath (folderPath ++ slash :: name) name = .crash ↔
      Unresolved realpath folderPath name := by
  have checked : ∀ retpath : List UInt8,
      (if rootPath.isPrefixOf retpath then FullPath.path retpath else .null) ≠ .crash := by
    intro retpath
    split <;> exact nofun
  rw [resolvePath, take_child, Unresolved]
  split
  · next retpath found =>
    rw [found]
    exact iff_of_false (checked retpath) nofun
  · next found =>
    rw [found]
    exact iff_of_false nofun nofun
  · next missed =>
    rw [missed, eq_self, true_and]
    split
    · next folder found =>
      have resolved : ¬ ∀ other, realpath (folderPath ++ [slash]) ≠ .path other :=
        fun none => none folder found
      rw [or_iff_right resolved]
      split
      · next sanitized accepted =>
        exact iff_of_false (checked _) fun refused => refused sanitized accepted
      · next refused => exact iff_of_true rfl refused
    · next missed' => exact iff_of_true rfl (.inl missed')

end Returned

end Nookobo.Mtp
