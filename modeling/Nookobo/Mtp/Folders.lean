import Nookobo.Mtp.Paths

/-!
# Folders

`get_next_child_handle` steps through the live entries of a folder, and
`scan_and_add_folder` brings them into line with the directory: what the
directory shows gets an entry, and what cannot be found any more is discarded.
The scan resolves the path of every child again, which crashes on a file that
is gone and whose name `sanitize_name` refuses.
-/

namespace Nookobo.Mtp

open Nookobo.Semantics FsHandlesDb

/-! ## The directory -/

/-- The files as the system calls show them. `stat` has the kind and the size. -/
structure FileSystem where
  opendir : List UInt8 → Option (List (List UInt8))
  stat : List UInt8 → Option (Bool × Int)
  realpath : List UInt8 → Resolved

/-- The name in `fs_entry_stat`: behind the last slash that is not the first byte. -/
def fileNameOf (path : List UInt8) : List UInt8 :=
  let tail := path.rtakeWhile (· != slash)
  if tail.length + 1 < path.length then tail else path

/-- `fs_entry_stat` -/
def fsEntryStat (fs : FileSystem) (path : List UInt8) : Option FileFoundInfo :=
  (fs.stat path).map fun (isDirectory, size) => ⟨isDirectory, (fileNameOf path).take 256, size⟩

/-- What `fs_find_first_file` and `fs_find_next_file` find. The first one gives nothing where it
finds no file. -/
def findFiles (fs : FileSystem) (folder : List UInt8) : Option (List FileFoundInfo) :=
  (fs.opendir folder).bind fun names =>
    match names.filterMap fun name => fsEntryStat fs (folder ++ slash :: name) with
    | [] => none
    | files => some files

/-- The files that `scan_and_add_folder` adds. -/
def listable (showHiddenFiles : Bool) (filename : List UInt8) : Bool :=
  filename != [dot, dot] && filename != [dot] &&
    (showHiddenFiles || filename.head? != some dot)

namespace FsHandlesDb

/-- The first loop of `scan_and_add_folder`. -/
def addFiles (showHiddenFiles : Bool) (parent storageId : Nat) (files : List FileFoundInfo)
    (db : FsHandlesDb) : FsHandlesDb :=
  files.foldl (fun db fileinfo =>
    if listable showHiddenFiles fileinfo.filename then (db.addEntry fileinfo parent storageId).2
    else db) db

/-- The second loop: `get_next_child_handle` along the list, and a `stat64` for each child. It
has no result where a path crashes the program, or its walk does not end. -/
def syncChildren (fs : FileSystem) (rootOf : Nat → Option (List UInt8)) (parent storageId : Nat) :
    List Nat → FsHandlesDb → Option FsHandlesDb
  | [], db => some db
  | i :: rest, db =>
      match (db.entries[i]?).filter (childOf parent storageId) with
      | none => syncChildren fs rootOf parent storageId rest db
      | some entry =>
          match buildFullPath (fun id => (rootOf id).isSome) db fs.realpath
              (rootOf entry.storageId) entry with
          | some (.path path) =>
              match fs.stat path with
              | none => syncChildren fs rootOf parent storageId rest (db.markDeleted i)
              | some (_, size) =>
                  syncChildren fs rootOf parent storageId rest
                    (db.updateEntry i fun entry => { entry with size := size })
          | some .null => syncChildren fs rootOf parent storageId rest db
          | _ => none

/-- `scan_and_add_folder` -/
def scanAndAddFolder (fs : FileSystem) (rootOf : Nat → Option (List UInt8))
    (showHiddenFiles : Bool) (base : List UInt8) (parent storageId : Nat) (db : FsHandlesDb) :
    Option (Int × FsHandlesDb) :=
  let found := findFiles fs base
  let db := initSearchHandle parent storageId
    (db.addFiles showHiddenFiles parent storageId (found.getD []))
  (db.syncChildren fs rootOf parent storageId db.searchEntry).map fun db =>
    (if found.isSome then 0 else -1, { db with searchEntry := [] })

end FsHandlesDb

/-! ## The children of a folder -/

/-- What it is to be a live child of a folder. -/
theorem childOf_iff {parent storageId : Nat} {entry : FsEntry} :
    childOf parent storageId entry = true ↔
      entry.isDeleted = false ∧ entry.parent = parent ∧ entry.storageId = storageId ∧
        entry.handle ≠ entry.parent := by
  simp only [childOf, Bool.and_eq_true, beq_iff_eq, bne_iff_ne, Bool.not_eq_true', and_assoc]

/-! ## The walk to a folder, while its children change -/

/-- The same entries with handles up to a bound. -/
def AgreeBelow (bound : Nat) (db after : FsHandlesDb) : Prop :=
  ∀ (i : Nat) (entry : FsEntry), entry.handle ≤ bound →
    (after.entries[i]? = some entry ↔ db.entries[i]? = some entry)

/-- Agreement up to a bound carries over two steps. -/
theorem AgreeBelow.trans {bound : Nat} {db between after : FsHandlesDb}
    (first : AgreeBelow bound db between) (second : AgreeBelow bound between after) :
    AgreeBelow bound db after :=
  fun i entry below => (second i entry below).trans (first i entry below)

/-- A new entry gets a handle beyond the bound. -/
theorem AgreeBelow.addEntry {bound : Nat} {db : FsHandlesDb} (given : bound < db.nextHandle)
    (fileinfo : FileFoundInfo) (parent storageId : Nat) :
    AgreeBelow bound db (db.addEntry fileinfo parent storageId).2 := by
  intro i entry below
  rw [FsHandlesDb.addEntry]
  split
  · exact Iff.rfl
  · refine getElem?_linkEntry_eq_some.trans (or_iff_left ?_)
    rintro ⟨-, rfl⟩
    exact absurd below (Nat.not_le_of_lt given)

/-- A change of an entry beyond the bound leaves those up to it alone. -/
theorem AgreeBelow.updateEntry {bound i : Nat} {db : FsHandlesDb} {target : FsEntry}
    (here : db.entries[i]? = some target) (above : bound < target.handle) {f : FsEntry → FsEntry}
    (sameHandle : ∀ entry, (f entry).handle = entry.handle) :
    AgreeBelow bound db (db.updateEntry i f) := by
  intro j entry below
  rw [getElem?_updateEntry]
  split
  · next same =>
    subst same
    rw [here, Option.map_some, Option.some_inj, Option.some_inj]
    constructor
    · rintro rfl
      exact absurd (sameHandle target ▸ below) (Nat.not_le_of_lt above)
    · rintro rfl
      exact absurd below (Nat.not_le_of_lt above)
  · exact Iff.rfl

section Walks

variable {rooted : Nat → Bool} {db after : FsHandlesDb}
  {registry registry' : Registry CatalogueObject}

/-- In a session a handle finds an entry exactly when it is the live one with that handle. -/
theorem getEntryByHandle_eq_some_iff (represents : Represents db registry) {handle : Nat}
    (nonzero : handle ≠ 0) {i : Nat} :
    db.getEntryByHandle rooted handle = some i ↔
      ∃ entry, db.entries[i]? = some entry ∧ handled rooted handle entry = true := by
  refine ⟨getEntryByHandle_eq_some, ?_⟩
  rintro ⟨entry, here, selected⟩
  cases found : db.getEntryByHandle rooted handle with
  | none =>
      rw [(getEntryByHandle_eq_none_iff represents.wellFormed rooted handle).mp found entry
        (List.mem_of_getElem? here)] at selected
      cases selected
  | some j =>
      obtain ⟨other, there, selected'⟩ := getEntryByHandle_eq_some found
      have isHandle := (handled_iff.mp selected).2.1
      have isHandle' := (handled_iff.mp selected').2.1
      rw [represents.unique j i other entry there here (isHandle'.trans isHandle.symm)
        (isHandle' ▸ nonzero)]

/-- The parent found for an entry is the live one its parent field names, below the top. -/
theorem parentEntry_eq_some_iff (represents : Represents db registry) {entry folder : FsEntry} :
    parentEntry rooted db entry = some folder ↔
      (entry.parent ≠ 0 ∧ entry.parent ≠ allOnes) ∧
        ∃ i : Nat, db.entries[i]? = some folder ∧
          handled rooted entry.parent folder = true := by
  rw [parentEntry]
  split
  · next inFolder =>
    rw [Option.bind_eq_some_iff, and_iff_right inFolder]
    refine exists_congr fun i => ?_
    rw [getEntryByHandle_eq_some_iff represents inFolder.1]
    constructor
    · rintro ⟨⟨other, here, selected⟩, there⟩
      rw [here] at there
      cases there
      exact ⟨here, selected⟩
    · exact fun both => ⟨⟨folder, both⟩, both.1⟩
  · next top => exact iff_of_false (by simp) fun both => top both.1

/-- The walk from an entry below the bound is not touched. -/
theorem lineage_congr (represents : Represents db registry)
    (represents' : Represents after registry')
    (placed : Placed db) {bound : Nat} (agree : AgreeBelow bound db after) {rounds : Nat}
    {entry : FsEntry} (below : entry.parent ≤ bound) :
    after.lineage rooted rounds entry = db.lineage rooted rounds entry := by
  induction rounds generalizing entry with
  | zero => rfl
  | succ rounds ih =>
      have sameParent : parentEntry rooted after entry = parentEntry rooted db entry := by
        refine Option.ext fun folder => ?_
        rw [parentEntry_eq_some_iff represents, parentEntry_eq_some_iff represents']
        refine and_congr_right fun _ => exists_congr fun i => and_congr_left fun selected => ?_
        have isParent := (handled_iff.mp selected).2.1
        exact agree i folder (isParent ▸ below)
      rw [lineage, lineage, sameParent]
      cases found : parentEntry rooted db entry with
      | none => rfl
      | some folder =>
          obtain ⟨-, ⟨i, there⟩, -, isParent, -⟩ := parentEntry_eq_some found
          have lower : folder.parent ≤ bound := by
            by_cases top : folder.parent = 0
            · rw [top]
              exact Nat.zero_le bound
            · obtain ⟨_, _, _, isHigher, _, less⟩ := placed.inFolder i folder there top
              omega
          exact congrArg (Option.map (entry :: ·)) (ih lower)

/-- A walk that ends is the same with more rounds. -/
theorem lineage_mono {rounds : Nat} {entry : FsEntry} {entries : List FsEntry}
    (walked : db.lineage rooted rounds entry = some entries) {more : Nat} (le : rounds ≤ more) :
    db.lineage rooted more entry = some entries := by
  induction rounds generalizing entry entries more with
  | zero => cases walked
  | succ rounds ih =>
      obtain ⟨more, rfl⟩ : ∃ k, more = k + 1 := ⟨more - 1, by omega⟩
      rcases lineage_cons walked with ⟨top, rfl⟩ | ⟨folder, rest, found, above, rfl⟩
      · rw [lineage, top]
      · rw [lineage, found]
        exact congrArg (Option.map (entry :: ·)) (ih above (by omega))

end Walks

/-- The walk of a child goes on like this from its folder. -/
def FolderWalk (rooted : Nat → Bool) (db : FsHandlesDb) (parent : Nat) (walk : List FsEntry) :
    Prop :=
  (parent = 0 ∧ walk = []) ∨
    (parent ≠ 0 ∧ parent ≠ allOnes ∧ ∃ (i : Nat) (folder : FsEntry),
      db.entries[i]? = some folder ∧ handled rooted parent folder = true ∧
        db.lineage rooted (db.entries.length + 1) folder = some walk)

/-- The walk of a child is the child and the walk of its folder. -/
theorem lineage_child {rooted : Nat → Bool} {db after : FsHandlesDb} {parent : Nat}
    {walk : List FsEntry} (invariant : PathInvariant ⟨db, rooted⟩)
    (invariant' : PathInvariant ⟨after, rooted⟩) (above : FolderWalk rooted db parent walk)
    (agree : AgreeBelow parent db after) {i : Nat} {entry : FsEntry}
    (here : after.entries[i]? = some entry) (inFolder : entry.parent = parent) :
    after.lineage rooted (after.entries.length + 1) entry = some (entry :: walk) := by
  obtain ⟨_, represents, -⟩ := invariant.represents
  obtain ⟨_, represents', -⟩ := invariant'.represents
  rcases above with ⟨top, rfl⟩ | ⟨nonzero, given, j, folder, there, selected, higher⟩
  · have noParent : parentEntry rooted after entry = none :=
      if_neg fun both => both.1 (inFolder.trans top)
    rw [lineage, noParent]
  · have isParent := (handled_iff.mp selected).2.1
    have found : parentEntry rooted after entry = some folder := by
      rw [parentEntry_eq_some_iff represents', inFolder]
      exact ⟨⟨nonzero, given⟩, j, (agree j folder (Nat.le_of_eq isParent)).mpr there, selected⟩
    have lower : folder.parent ≤ parent := by
      by_cases top : folder.parent = 0
      · rw [top]
        exact Nat.zero_le parent
      · obtain ⟨_, _, _, isHigher, _, less⟩ := invariant.placed.inFolder j folder there top
        omega
    obtain ⟨entries, walked⟩ := invariant'.lineage_ends here
    rcases lineage_cons walked with ⟨noParent, -⟩ | ⟨folder', rest, found', higher', same⟩
    · rw [found] at noParent
      cases noParent
    · rw [found] at found'
      cases found'
      -- the two walks from the folder have different numbers of rounds
      have first := lineage_mono higher (Nat.le_max_left _ (after.entries.length))
      have second := lineage_mono higher' (Nat.le_max_right (db.entries.length + 1) _)
      rw [lineage_congr represents represents' invariant.placed agree lower, first] at second
      rw [walked, same, Option.some.inj second]

/-! ## Looking up a child -/

/-- What a lookup of a child's path sees in a directory: a file that is not there is looked for
under its sanitized name, and there is no answer where the name is refused. -/
def seen (contents : List UInt8 → Option (Bool × Int)) (name : List UInt8) :
    Option (Option (Bool × Int)) :=
  match contents name with
  | some file => some (some file)
  | none =>
      match sanitizeName name name.length with
      | (1, sanitized) => some (contents sanitized)
      | _ => none

/-- A child is newer than its folder. -/
theorem Placed.lt_of_childOf {db : FsHandlesDb} (placed : Placed db) {parent storageId i : Nat}
    {entry : FsEntry} (here : db.entries[i]? = some entry)
    (child : childOf parent storageId entry = true) : parent < entry.handle := by
  obtain ⟨-, inFolder, -, differs⟩ := childOf_iff.mp child
  by_cases top : entry.parent = 0
  · omega
  · obtain ⟨_, _, _, isParent, _, less⟩ := placed.inFolder i entry here top
    omega

/-! ## The first loop -/

/-- What adding files to a folder leads to. -/
structure Added (db after : FsHandlesDb) (parent storageId : Nat) (names : List (List UInt8)) :
    Prop where
  kept : ∀ (i : Nat) (entry : FsEntry), db.entries[i]? = some entry →
    after.entries[i]? = some entry
  new : ∀ (i : Nat) (entry : FsEntry), after.entries[i]? = some entry →
    db.entries[i]? = some entry ∨ childOf parent storageId entry = true ∧ entry.name ∈ names
  all : ∀ name ∈ names, ∃ (i : Nat) (entry : FsEntry), after.entries[i]? = some entry ∧
    childOf parent storageId entry = true ∧ entry.name = name

/-- Adding nothing adds no name. -/
theorem Added.refl (db : FsHandlesDb) (parent storageId : Nat) :
    Added db db parent storageId [] where
  kept := fun _ _ here => here
  new := fun _ _ here => .inl here
  all := fun _ member => nomatch member

/-- Names added in two rounds. -/
theorem Added.trans {db between after : FsHandlesDb} {parent storageId : Nat}
    {names names' : List (List UInt8)} (first : Added db between parent storageId names)
    (second : Added between after parent storageId names') :
    Added db after parent storageId (names ++ names') where
  kept := fun i entry here => second.kept i entry (first.kept i entry here)
  new := by
    intro i entry here
    rcases second.new i entry here with old | ⟨child, member⟩
    · rcases first.new i entry old with older | ⟨child, member⟩
      · exact .inl older
      · exact .inr ⟨child, List.mem_append_left _ member⟩
    · exact .inr ⟨child, List.mem_append_right _ member⟩
  all := by
    intro name member
    rcases List.mem_append.mp member with early | late
    · obtain ⟨i, entry, here, child, isName⟩ := first.all name early
      exact ⟨i, entry, second.kept i entry here, child, isName⟩
    · exact second.all name late

/-- The folder that the new objects go to is there, or is the top of the storage. -/
def FolderKnown (db : FsHandlesDb) (parent storageId : Nat) : Prop :=
  parent ≠ 0 → ∃ (i : Nat) (folder : FsEntry), db.entries[i]? = some folder ∧
    folder.handle = parent ∧ folder.storageId = storageId

section Adding

variable {rooted : Nat → Bool} {db : FsHandlesDb} {parent storageId : Nat}

/-- The handle of a known folder has been given already. -/
theorem lt_nextHandle_of_folderKnown (invariant : PathInvariant ⟨db, rooted⟩)
    (known : FolderKnown db parent storageId) : parent < db.nextHandle := by
  obtain ⟨_, represents, -⟩ := invariant.represents
  by_cases top : parent = 0
  · rw [top]
    exact represents.positive
  · obtain ⟨i, folder, here, isParent, -⟩ := known top
    exact isParent ▸ represents.given i folder here

/-- `add_entry` adds one name to its folder. -/
theorem added_addEntry (invariant : PathInvariant ⟨db, rooted⟩)
    (known : FolderKnown db parent storageId) {fileinfo : FileFoundInfo}
    (notRoot : fileinfo.filename ≠ [slash]) :
    Added db (db.addEntry fileinfo parent storageId).2 parent storageId [fileinfo.filename] := by
  obtain ⟨_, represents, -⟩ := invariant.represents
  rw [FsHandlesDb.addEntry]
  split
  · next i found =>
    obtain ⟨entry, here, selected⟩ := findEntry_eq_some found
    obtain ⟨name, inFolder, inStorage, live⟩ := named_iff.mp selected
    have isObject : entry.handle ≠ 0 := fun root =>
      notRoot (name.symm.trans (represents.roots i entry here root))
    refine ⟨fun _ _ here => here, fun _ _ here => .inl here, fun name' member => ?_⟩
    rw [List.mem_singleton.mp member]
    refine ⟨i, entry, here, childOf_iff.mpr ⟨live, inFolder, inStorage, ?_⟩, name⟩
    by_cases top : entry.parent = 0
    · rw [top]
      exact isObject
    · obtain ⟨_, _, _, isParent, _, less⟩ := invariant.placed.inFolder i entry here top
      omega
  · have linked : ∀ (i : Nat) (other : FsEntry),
        (db.allocEntry fileinfo parent storageId).2.entries[i]? = some other ↔
          db.entries[i]? = some other ∨ i = db.entries.length ∧
            ⟨db.nextHandle, parent, storageId, fileinfo.filename, fileinfo.isDirectory, false,
              fileinfo.size, -1⟩ = other :=
      fun i other => getElem?_linkEntry_eq_some
    have below := lt_nextHandle_of_folderKnown invariant known
    have child : childOf parent storageId ⟨db.nextHandle, parent, storageId, fileinfo.filename,
        fileinfo.isDirectory, false, fileinfo.size, -1⟩ = true :=
      childOf_iff.mpr ⟨rfl, rfl, rfl, Nat.ne_of_gt below⟩
    constructor
    · exact fun i entry here => (linked i entry).mpr (.inl here)
    · intro i entry here
      rcases (linked i entry).mp here with old | ⟨-, rfl⟩
      · exact .inl old
      · exact .inr ⟨child, List.mem_singleton_self _⟩
    · intro name member
      rw [List.mem_singleton.mp member]
      exact ⟨db.entries.length, _, (linked _ _).mpr (.inr ⟨rfl, rfl⟩), child, rfl⟩

/-- The first loop adds the files that are listable, each once. -/
theorem addFiles_spec (showHiddenFiles : Bool) {files : List FileFoundInfo}
    (invariant : PathInvariant ⟨db, rooted⟩) (known : FolderKnown db parent storageId)
    (few : db.nextHandle + files.length + 1 < 2 ^ 32)
    (named : ∀ file ∈ files, listable showHiddenFiles file.filename = true →
      FileName file.filename) :
    PathInvariant ⟨db.addFiles showHiddenFiles parent storageId files, rooted⟩ ∧
      AgreeBelow parent db (db.addFiles showHiddenFiles parent storageId files) ∧
      (db.addFiles showHiddenFiles parent storageId files).nextHandle ≤
        db.nextHandle + files.length ∧
      Added db (db.addFiles showHiddenFiles parent storageId files) parent storageId
        ((files.map FileFoundInfo.filename).filter (listable showHiddenFiles)) := by
  induction files generalizing db with
  | nil => exact ⟨invariant, fun _ _ _ => Iff.rfl, Nat.le_refl _, .refl db parent storageId⟩
  | cons file rest ih =>
      obtain ⟨first, later⟩ := List.forall_mem_cons.mp named
      rw [List.length_cons] at few
      rw [List.map_cons, List.filter_cons]
      cases isShown : listable showHiddenFiles file.filename with
      | false =>
          have same : db.addFiles showHiddenFiles parent storageId (file :: rest) =
              db.addFiles showHiddenFiles parent storageId rest := by
            rw [addFiles, List.foldl_cons, isShown]
            rfl
          obtain ⟨kept, agree, next, added⟩ := ih invariant known (by omega) later
          rw [same, List.length_cons]
          exact ⟨kept, agree, by omega, added⟩
      | true =>
          have isName := first isShown
          have unfolded : db.addFiles showHiddenFiles parent storageId (file :: rest) =
              (db.addEntry file parent storageId).2.addFiles showHiddenFiles parent storageId
                rest := by
            rw [addFiles, List.foldl_cons, isShown]
            rfl
          have regular : Regular ⟨db, rooted⟩ (.add file parent storageId) :=
            ⟨⟨isName, by change db.nextHandle + 1 < _; omega⟩, known⟩
          have step : PathInvariant ⟨(db.addEntry file parent storageId).2, rooted⟩ :=
            invariant.step regular
          have grown : (db.addEntry file parent storageId).2.nextHandle ≤ db.nextHandle + 1 :=
            nextHandle_handleStep_le ⟨db, rooted⟩ (.add file parent storageId)
          have one := added_addEntry invariant known isName.ne_slash
          have known' : FolderKnown (db.addEntry file parent storageId).2 parent storageId := by
            intro nonzero
            obtain ⟨i, folder, here, rest⟩ := known nonzero
            exact ⟨i, folder, one.kept i folder here, rest⟩
          obtain ⟨kept, agree, next, added⟩ := ih step known' (by omega) later
          rw [unfolded, List.length_cons]
          exact ⟨kept,
            (AgreeBelow.addEntry (lt_nextHandle_of_folderKnown invariant known) file parent
              storageId).trans agree, by omega, one.trans added⟩

end Adding

/-! ## The second loop -/

/-- An entry after the lookup of its path. -/
def synced (entry : FsEntry) : Option (Bool × Int) → FsEntry
  | none => deleted entry
  | some (_, size) => { entry with size := size }

/-- What the loop makes of a child once its path is built: it is updated, it stays as it is, or
the null path crashes the program. -/
def lookedAt (fs : FileSystem) (rootPath : List UInt8) (walk : List FsEntry) (entry : FsEntry) :
    Option (FsEntry → FsEntry) :=
  match resolvePath fs.realpath rootPath (rootPath ++ pathOf (entry :: walk)) entry.name with
  | .path path => some (synced · (fs.stat path))
  | .null => some id
  | .crash => none

/-- What the loop does with an entry it comes by. -/
def lookEntry (fs : FileSystem) (rootPath : List UInt8) (walk : List FsEntry)
    (parent storageId : Nat) (entry : FsEntry) : FsEntry :=
  if childOf parent storageId entry then (lookedAt fs rootPath walk entry).getD id entry
  else entry

section Sync

variable {fs : FileSystem} {rootOf : Nat → Option (List UInt8)} {parent storageId : Nat}
  {rootPath base : List UInt8} {contents : List UInt8 → Option (Bool × Int)}
  {start : FsHandlesDb} {walk : List FsEntry}

/-- The storages with a root. -/
abbrev rootedBy (rootOf : Nat → Option (List UInt8)) (id : Nat) : Bool := (rootOf id).isSome

/-- A child is looked at in vain where neither it nor its folder is found, or its name is
refused. -/
theorem lookedAt_eq_none_iff {entry : FsEntry} :
    lookedAt fs rootPath walk entry = none ↔
      Unresolved fs.realpath (rootPath ++ pathOf walk) entry.name := by
  rw [← @resolvePath_eq_crash_iff _ rootPath, ← append_pathOf_cons, lookedAt]
  split
  · next path resolved => rw [resolved]; exact iff_of_false nofun nofun
  · next resolved => rw [resolved]; exact iff_of_false nofun nofun
  · next resolved => exact iff_of_true rfl resolved

/-- A look that succeeds leaves the entry or takes over what it saw. -/
theorem lookedAt_eq_some {entry : FsEntry} {change : FsEntry → FsEntry}
    (looked : lookedAt fs rootPath walk entry = some change) :
    change = id ∨ ∃ outcome, change = (synced · outcome) := by
  rw [lookedAt] at looked
  split at looked
  · cases looked
    exact .inr ⟨_, rfl⟩
  · cases looked
    exact .inl rfl
  · cases looked

/-- A look changes neither the handle nor the place of an entry. -/
theorem handle_of_lookedAt {entry : FsEntry} {change : FsEntry → FsEntry}
    (looked : lookedAt fs rootPath walk entry = some change) (other : FsEntry) :
    (change other).handle = other.handle := by
  rcases lookedAt_eq_some looked with rfl | ⟨outcome, rfl⟩
  · rfl
  · cases outcome <;> rfl

/-- A change that changes nothing leaves the database. -/
theorem updateEntry_id (db : FsHandlesDb) (i : Nat) : db.updateEntry i id = db := by
  rw [updateEntry, List.modify_id]

/-- The round of a child. -/
theorem syncChildren_cons (root : rootOf storageId = some rootPath)
    (first : PathInvariant ⟨start, rootedBy rootOf⟩)
    (above : FolderWalk (rootedBy rootOf) start parent walk) {db : FsHandlesDb}
    (invariant : PathInvariant ⟨db, rootedBy rootOf⟩) (agree : AgreeBelow parent start db)
    {i : Nat} {rest : List Nat} {entry : FsEntry} (here : db.entries[i]? = some entry)
    (child : childOf parent storageId entry = true) :
    db.syncChildren fs rootOf parent storageId (i :: rest) =
      (lookedAt fs rootPath walk entry).bind fun change =>
        (db.updateEntry i change).syncChildren fs rootOf parent storageId rest := by
  obtain ⟨-, inFolder, inStorage, -⟩ := childOf_iff.mp child
  have path : buildFullPath (rootedBy rootOf) db fs.realpath (rootOf entry.storageId) entry =
      some (resolvePath fs.realpath rootPath (rootPath ++ pathOf (entry :: walk)) entry.name) := by
    rw [buildFullPath, lineage_child first invariant above agree here inFolder, inStorage, root,
      Option.map_some]
  rw [syncChildren, here, Option.filter_some, if_pos child, lookedAt]
  dsimp only
  rw [path]
  cases resolvePath fs.realpath rootPath (rootPath ++ pathOf (entry :: walk)) entry.name with
  | path resolved =>
      rw [Option.bind_some]
      dsimp only
      cases fs.stat resolved with
      | none => rfl
      | some file => rfl
  | null =>
      rw [Option.bind_some, updateEntry_id]
  | crash => rfl

/-- A lookup is one of the requests of a session. -/
theorem PathInvariant.synced {rooted : Nat → Bool} {db : FsHandlesDb}
    (invariant : PathInvariant ⟨db, rooted⟩) (few : db.nextHandle + 1 < 2 ^ 32)
    (hasRoot : rooted storageId = true) {i : Nat} {entry : FsEntry}
    (here : db.entries[i]? = some entry) (child : childOf parent storageId entry = true)
    (outcome : Option (Bool × Int)) :
    PathInvariant ⟨db.updateEntry i (synced · outcome), rooted⟩ := by
  obtain ⟨live, -, inStorage, -⟩ := childOf_iff.mp child
  obtain ⟨_, represents, -⟩ := invariant.represents
  have found : db.getEntryByHandle rooted entry.handle = some i :=
    (getEntryByHandle_eq_some_iff represents
      (Nat.ne_zero_of_lt (invariant.placed.lt_of_childOf here child))).mpr
      ⟨entry, here, handled_iff.mpr ⟨live, rfl, inStorage ▸ hasRoot⟩⟩
  cases outcome with
  | none =>
      have step : PathInvariant (handleStep ⟨db, rooted⟩ (.discard entry.handle)) :=
        invariant.step ⟨⟨trivial, few⟩, trivial⟩
      rw [handleStep, HandleState.onHandle, found] at step
      exact step
  | some file =>
      have step : PathInvariant (handleStep ⟨db, rooted⟩ (.resize entry.handle file.2)) :=
        invariant.step ⟨⟨trivial, few⟩, trivial⟩
      rw [handleStep, HandleState.onHandle, found] at step
      exact step

/-- A look is a lookup, or changes nothing. -/
theorem PathInvariant.looked {db : FsHandlesDb} (invariant : PathInvariant ⟨db, rootedBy rootOf⟩)
    (few : db.nextHandle + 1 < 2 ^ 32) (root : rootOf storageId = some rootPath) {i : Nat}
    {entry : FsEntry} (here : db.entries[i]? = some entry)
    (child : childOf parent storageId entry = true) {change : FsEntry → FsEntry}
    (looked : lookedAt fs rootPath walk entry = some change) :
    PathInvariant ⟨db.updateEntry i change, rootedBy rootOf⟩ := by
  rcases lookedAt_eq_some looked with rfl | ⟨outcome, rfl⟩
  · rw [updateEntry_id]
    exact invariant
  · have hasRoot : rootedBy rootOf storageId = true := by
      rw [rootedBy, root]
      rfl
    exact invariant.synced few hasRoot here child outcome

/-- The loop crashes on the first child that is looked at in vain; otherwise each child has been
looked at once and nothing else is changed. -/
theorem syncChildren_spec (root : rootOf storageId = some rootPath)
    (first : PathInvariant ⟨start, rootedBy rootOf⟩)
    (above : FolderWalk (rootedBy rootOf) start parent walk) {links : List Nat}
    (nodup : links.Nodup) {db : FsHandlesDb} (invariant : PathInvariant ⟨db, rootedBy rootOf⟩)
    (agree : AgreeBelow parent start db) (few : db.nextHandle + 1 < 2 ^ 32) :
    (db.syncChildren fs rootOf parent storageId links = none ↔
      ∃ i ∈ links, ∃ entry, db.entries[i]? = some entry ∧
        childOf parent storageId entry = true ∧ lookedAt fs rootPath walk entry = none) ∧
    ∀ after, db.syncChildren fs rootOf parent storageId links = some after →
      PathInvariant ⟨after, rootedBy rootOf⟩ ∧ ∀ j : Nat, after.entries[j]? =
        if j ∈ links then
          (db.entries[j]?).map (lookEntry fs rootPath walk parent storageId)
        else db.entries[j]? := by
  induction links generalizing db with
  | nil =>
      refine ⟨iff_of_false (by simp [syncChildren]) (by simp), fun after same => ?_⟩
      cases same
      exact ⟨invariant, fun j => rfl⟩
  | cons i rest ih =>
      obtain ⟨new, later⟩ := List.nodup_cons.mp nodup
      cases isChild : (db.entries[i]?).filter (childOf parent storageId) with
      | none =>
          have other : ∀ entry, db.entries[i]? = some entry →
              childOf parent storageId entry = false := by
            intro entry here
            have refused := Option.filter_eq_none_iff.mp isChild entry here
            rwa [Bool.not_eq_true] at refused
          obtain ⟨crashes, result⟩ := ih later invariant agree few
          rw [syncChildren, isChild]
          refine ⟨crashes.trans ⟨?_, ?_⟩, fun after same => ?_⟩
          · rintro ⟨j, member, rest⟩
            exact ⟨j, List.mem_cons_of_mem i member, rest⟩
          · rintro ⟨j, member, entry, here, child, unseen⟩
            rcases List.mem_cons.mp member with rfl | member
            · rw [other entry here] at child
              cases child
            · exact ⟨j, member, entry, here, child, unseen⟩
          · obtain ⟨kept, entries⟩ := result after same
            refine ⟨kept, fun j => ?_⟩
            rw [entries]
            by_cases at' : j = i
            · rw [if_neg (at' ▸ new), if_pos (at' ▸ List.mem_cons_self), at']
              cases here : db.entries[i]? with
              | none => rfl
              | some entry => rw [Option.map_some, lookEntry, other entry here]; rfl
            · simp only [List.mem_cons, at', false_or]
      | some entry =>
          obtain ⟨here, child⟩ := Option.filter_eq_some_iff.mp isChild
          rw [syncChildren_cons root first above invariant agree here child]
          cases looked : lookedAt fs rootPath walk entry with
          | none =>
              refine ⟨iff_of_true rfl ⟨i, List.mem_cons_self, entry, here, child, looked⟩, ?_⟩
              exact fun after same => nomatch same
          | some change =>
              have stepped := invariant.looked few root here child looked
              have entries := fun j => getElem?_updateEntry db i j change
              have agree' : AgreeBelow parent start (db.updateEntry i change) :=
                agree.trans (AgreeBelow.updateEntry here
                  (invariant.placed.lt_of_childOf here child) (handle_of_lookedAt looked))
              obtain ⟨crashes, result⟩ := ih later stepped agree' few
              rw [Option.bind_some]
              refine ⟨crashes.trans ⟨?_, ?_⟩, fun after same => ?_⟩
              · rintro ⟨j, member, other, there, rest⟩
                rw [entries, if_neg (fun same : i = j => new (same ▸ member))] at there
                exact ⟨j, List.mem_cons_of_mem i member, other, there, rest⟩
              · rintro ⟨j, member, other, there, isChild', unseen⟩
                rcases List.mem_cons.mp member with rfl | member
                · rw [here] at there
                  cases there
                  rw [looked] at unseen
                  cases unseen
                · refine ⟨j, member, other, ?_, isChild', unseen⟩
                  rw [entries, if_neg (fun same : i = j => new (same ▸ member))]
                  exact there
              · obtain ⟨kept, changed⟩ := result after same
                refine ⟨kept, fun j => ?_⟩
                rw [changed, entries]
                by_cases at' : j = i
                · rw [if_neg (at' ▸ new), if_pos at'.symm, if_pos (at' ▸ List.mem_cons_self), at',
                    here, Option.map_some, Option.map_some, lookEntry, if_pos child, looked]
                  rfl
                · rw [if_neg (Ne.symm at')]
                  simp only [List.mem_cons, at', false_or]

end Sync

/-! ## The whole scan -/

/-- The file name of a path is what stands behind its last slash. -/
theorem fileNameOf_append {base name : List UInt8} (nonempty : base ≠ []) (plain : slash ∉ name) :
    fileNameOf (base ++ slash :: name) = name := by
  have tail : (base ++ slash :: name).rtakeWhile (· != slash) = name := by
    have kept : ∀ c ∈ name.reverse, (c != slash) = true := by
      intro c member
      rw [bne_iff_ne]
      rintro rfl
      exact plain (List.mem_reverse.mp member)
    rw [List.rtakeWhile, List.reverse_append, List.reverse_cons, List.append_assoc,
      List.takeWhile_append_of_pos kept, List.singleton_append,
      List.takeWhile_cons_of_neg (by simp), List.append_nil, List.reverse_reverse]
  have positive := List.length_pos_iff.mpr nonempty
  rw [fileNameOf, tail]
  exact if_pos (by rw [List.length_append, List.length_cons]; omega)

/-- The two dots are never listed. -/
theorem not_shown_dots (showHiddenFiles : Bool) :
    ¬ listable showHiddenFiles [dot] = true ∧ ¬ listable showHiddenFiles [dot, dot] = true := by
  cases showHiddenFiles <;> decide

/-- The search pointer is no part of what a session keeps. -/
theorem PathInvariant.search {rooted : Nat → Bool} {db : FsHandlesDb}
    (invariant : PathInvariant ⟨db, rooted⟩) (searchEntry : List Nat)
    (handleSearch storageSearch : Nat) :
    PathInvariant ⟨{ db with searchEntry, handleSearch, storageSearch }, rooted⟩ := by
  obtain ⟨⟨catalogue, represents, sameRoots⟩, placed, numbered, bounded⟩ := invariant
  exact ⟨⟨catalogue, ⟨⟨represents.wellFormed.linked, represents.wellFormed.byName,
    represents.wellFormed.byHandle⟩, represents.next, represents.positive, represents.given,
    represents.unique, represents.object, represents.roots⟩, sameRoots⟩,
    ⟨placed.inFolder, placed.named⟩, numbered, bounded⟩

/-- A live child with this name. -/
def Listed (db : FsHandlesDb) (parent storageId : Nat) (name : List UInt8) : Prop :=
  ∃ (i : Nat) (entry : FsEntry), db.entries[i]? = some entry ∧
    childOf parent storageId entry = true ∧ entry.name = name

/-- The live children of any folder once files are added to one. -/
theorem Added.listed_iff {db after : FsHandlesDb} {parent storageId : Nat}
    {names : List (List UInt8)} (added : Added db after parent storageId names)
    (parent' storageId' : Nat) (name : List UInt8) :
    Listed after parent' storageId' name ↔ Listed db parent' storageId' name ∨
      name ∈ names ∧ parent' = parent ∧ storageId' = storageId := by
  constructor
  · rintro ⟨i, entry, here, child, rfl⟩
    rcases added.new i entry here with old | ⟨child', member⟩
    · exact .inl ⟨i, entry, old, child, rfl⟩
    · obtain ⟨-, isParent, isStorage, -⟩ := childOf_iff.mp child
      obtain ⟨-, isParent', isStorage', -⟩ := childOf_iff.mp child'
      exact .inr ⟨member, isParent.symm.trans isParent', isStorage.symm.trans isStorage'⟩
  · rintro (⟨i, entry, old, child, rfl⟩ | ⟨member, rfl, rfl⟩)
    · exact ⟨i, entry, added.kept i entry old, child, rfl⟩
    · exact added.all name member

/-- The database when the loop over the directory has ended and the search begins. -/
structure Started (rooted : Nat → Bool) (db between : FsHandlesDb) (parent storageId : Nat)
    (names : List (List UInt8)) : Prop where
  invariant : PathInvariant ⟨between, rooted⟩
  agree : AgreeBelow parent db between
  added : Added db between parent storageId names
  few : between.nextHandle + 1 < 2 ^ 32
  nodup : between.searchEntry.Nodup
  onList : ∀ (i : Nat) (entry : FsEntry), between.entries[i]? = some entry →
    i ∈ between.searchEntry

section Scan

variable {fs : FileSystem} {rootOf : Nat → Option (List UInt8)} {parent storageId : Nat}
  {rootPath base : List UInt8} {contents : List UInt8 → Option (Bool × Int)} {db : FsHandlesDb}
  {walk : List FsEntry}

/-- The names that the first loop of a scan adds. -/
def shownNames (fs : FileSystem) (base : List UInt8) (showHiddenFiles : Bool) :
    List (List UInt8) :=
  (((findFiles fs base).getD []).map FileFoundInfo.filename).filter (listable showHiddenFiles)

/-- A scan is its second loop, from a database with the files of the directory. -/
theorem scanAndAddFolder_started (fs : FileSystem) (rootOf : Nat → Option (List UInt8))
    (base : List UInt8) (invariant : PathInvariant ⟨db, rootedBy rootOf⟩)
    (known : FolderKnown db parent storageId)
    (few : db.nextHandle + ((findFiles fs base).getD []).length + 1 < 2 ^ 32)
    (showHiddenFiles : Bool) (named : ∀ name ∈ shownNames fs base showHiddenFiles, FileName name) :
    ∃ between,
      Started (rootedBy rootOf) db between parent storageId
        (shownNames fs base showHiddenFiles) ∧
      scanAndAddFolder fs rootOf showHiddenFiles base parent storageId db =
        (between.syncChildren fs rootOf parent storageId between.searchEntry).map fun db =>
          (if (findFiles fs base).isSome then 0 else -1, { db with searchEntry := [] }) := by
  have isNamed : ∀ file ∈ (findFiles fs base).getD [],
      listable showHiddenFiles file.filename = true → FileName file.filename :=
    fun file member isShown =>
      named _ (List.mem_filter.mpr ⟨List.mem_map_of_mem member, isShown⟩)
  obtain ⟨kept, agree, next, added⟩ :=
    addFiles_spec showHiddenFiles invariant known few isNamed
  have kept' := kept.search
    (db.addFiles showHiddenFiles parent storageId ((findFiles fs base).getD [])).entryList parent
    storageId
  obtain ⟨_, represents, -⟩ := kept.represents
  have linked := represents.wellFormed.linked
  refine ⟨initSearchHandle parent storageId
    (db.addFiles showHiddenFiles parent storageId ((findFiles fs base).getD [])),
    ⟨kept', agree, ⟨added.kept, added.new, added.all⟩, ?_, ?_, fun i entry here => ?_⟩, rfl⟩
  · exact Nat.lt_of_le_of_lt (Nat.succ_le_succ next) few
  · change (db.addFiles showHiddenFiles parent storageId _).entryList.Nodup
    rw [linked]
    exact List.nodup_reverse.mpr List.nodup_range
  · change i ∈ (db.addFiles showHiddenFiles parent storageId _).entryList
    rw [linked, List.mem_reverse, List.mem_range]
    exact (List.getElem?_eq_some_iff.mp here).1

/-- The second loop crashes exactly where a child's path does not resolve. -/
theorem Started.crashes_iff (root : rootOf storageId = some rootPath)
    (invariant : PathInvariant ⟨db, rootedBy rootOf⟩)
    (above : FolderWalk (rootedBy rootOf) db parent walk) {between : FsHandlesDb}
    {names : List (List UInt8)}
    (started : Started (rootedBy rootOf) db between parent storageId names) :
    between.syncChildren fs rootOf parent storageId between.searchEntry = none ↔
      ∃ name, Listed between parent storageId name ∧
        Unresolved fs.realpath (rootPath ++ pathOf walk) name := by
  rw [(syncChildren_spec root invariant above started.nodup started.invariant started.agree
    started.few).1]
  constructor
  · rintro ⟨i, -, entry, here, child, missed⟩
    exact ⟨entry.name, ⟨i, entry, here, child, rfl⟩, lookedAt_eq_none_iff.mp missed⟩
  · rintro ⟨name, ⟨i, entry, here, child, rfl⟩, missed⟩
    exact ⟨i, started.onList i entry here, entry, here, child, lookedAt_eq_none_iff.mpr missed⟩

/-- The name of a child is one that a file can have. -/
theorem PathInvariant.fileName_of_childOf {rooted : Nat → Bool}
    (invariant : PathInvariant ⟨db, rooted⟩) {i : Nat} {entry : FsEntry}
    (here : db.entries[i]? = some entry) (child : childOf parent storageId entry = true) :
    FileName entry.name :=
  invariant.placed.named i entry here
    (Nat.ne_zero_of_lt (invariant.placed.lt_of_childOf here child))

end Scan

/-- A storage with one book. -/
def bookPath : List UInt8 := [slash, 0x6D]

/-- A file system with this directory and nothing else. -/
def bookFileSystem : FileSystem where
  opendir path := if path = bookPath then some [[dot], [dot, dot], [0x61]] else none
  stat path :=
    if path = bookPath ++ [slash, dot] then some (true, 0)
    else if path = bookPath ++ [slash, 0x61] then some (false, 7) else none
  realpath path :=
    if path = bookPath ++ [slash, 0x61] then .path (bookPath ++ [slash, 0x61])
    else if path = bookPath ++ [slash] then .path bookPath else .noEntry

/-- What `readdir` gives: the two dots and names that files can have. -/
structure DirectoryNames (fs : FileSystem) (base : List UInt8) : Prop where
  nonempty : base ≠ []
  names : ∀ names, fs.opendir base = some names → ∀ name ∈ names,
    name = [dot] ∨ name = [dot, dot] ∨ FileName name ∧ name.length ≤ 256

/-- A name that is added is one that a file can have. -/
theorem DirectoryNames.fileName_of_shown {fs : FileSystem} {base : List UInt8}
    (directory : DirectoryNames fs base) {showHiddenFiles : Bool} {name : List UInt8}
    (shown : name ∈ shownNames fs base showHiddenFiles) : FileName name := by
  obtain ⟨member, isShown⟩ := List.mem_filter.mp shown
  obtain ⟨file, found, rfl⟩ := List.mem_map.mp member
  cases opened : fs.opendir base with
  | none =>
      rw [findFiles, opened, Option.bind_none, Option.getD_none] at found
      cases found
  | some names =>
      have inDirectory : file ∈ names.filterMap fun name =>
          fsEntryStat fs (base ++ slash :: name) := by
        rw [findFiles, opened, Option.bind_some] at found
        split at found
        · cases found
        · exact found
      obtain ⟨inside, member', stated⟩ := List.mem_filterMap.mp inDirectory
      obtain ⟨⟨isDirectory, size⟩, -, rfl⟩ := Option.map_eq_some_iff.mp stated
      rcases directory.names names opened inside member' with rfl | rfl | ⟨isName, short⟩
      · rw [fileNameOf_append directory.nonempty (by decide)] at isShown
        exact absurd isShown (not_shown_dots showHiddenFiles).1
      · rw [fileNameOf_append directory.nonempty (by decide)] at isShown
        exact absurd isShown (not_shown_dots showHiddenFiles).2
      · dsimp only
        rw [fileNameOf_append directory.nonempty isName.plain, List.take_of_length_le short]
        exact isName

/-- No more files are found than the directory lists. -/
theorem length_findFiles_le (fs : FileSystem) (base : List UInt8) :
    ((findFiles fs base).getD []).length ≤ ((fs.opendir base).getD []).length := by
  cases opened : fs.opendir base with
  | none =>
      rw [findFiles, opened, Option.bind_none, Option.getD_none]
      exact Nat.zero_le _
  | some names =>
      rw [findFiles, opened, Option.bind_some, Option.getD_some]
      split
      · exact Nat.zero_le _
      · exact List.length_filterMap_le ..

/-- A listing crashes exactly where the path of a child does not resolve, be the child known or
just found. In a folder that is there, with what was found in it, this is a known child that is
gone and whose name `sanitize_name` refuses; in a folder that is gone it is any known child. -/
theorem scan_crashes_iff {fs : FileSystem} {rootOf : Nat → Option (List UInt8)}
    {parent storageId : Nat} {rootPath base : List UInt8} {db : FsHandlesDb} {walk : List FsEntry}
    (root : rootOf storageId = some rootPath) (directory : DirectoryNames fs base)
    (invariant : PathInvariant ⟨db, rootedBy rootOf⟩)
    (above : FolderWalk (rootedBy rootOf) db parent walk)
    (known : FolderKnown db parent storageId)
    (few : db.nextHandle + ((fs.opendir base).getD []).length + 1 < 2 ^ 32)
    (showHiddenFiles : Bool) :
    let crashes := scanAndAddFolder fs rootOf showHiddenFiles base parent storageId db = none
    let folderPath := rootPath ++ pathOf walk
    (crashes ↔ ∃ name,
      (Listed db parent storageId name ∨ name ∈ shownNames fs base showHiddenFiles) ∧
        Unresolved fs.realpath folderPath name) ∧
    ((∃ path, fs.realpath (folderPath ++ [slash]) = .path path) →
      (∀ name ∈ shownNames fs base showHiddenFiles,
        fs.realpath (folderPath ++ slash :: name) ≠ .noEntry) →
      (crashes ↔ ∃ name, Listed db parent storageId name ∧
        fs.realpath (folderPath ++ slash :: name) = .noEntry ∧
          (sanitizeName name name.length).1 ≠ 1)) ∧
    (fs.opendir base = none → (∀ path, fs.realpath (folderPath ++ [slash]) ≠ .path path) →
      (∀ name, FileName name → fs.realpath (folderPath ++ slash :: name) = .noEntry) →
      (crashes ↔ ∃ name, Listed db parent storageId name)) := by
  intro crashes folderPath
  have fewer := length_findFiles_le fs base
  have general : crashes ↔ ∃ name,
      (Listed db parent storageId name ∨ name ∈ shownNames fs base showHiddenFiles) ∧
        Unresolved fs.realpath folderPath name := by
    obtain ⟨between, started, scans⟩ := scanAndAddFolder_started fs rootOf base invariant
      known (by omega) showHiddenFiles fun name => directory.fileName_of_shown
    change scanAndAddFolder fs rootOf showHiddenFiles base parent storageId db = none ↔ _
    rw [scans, Option.map_eq_none_iff, started.crashes_iff root invariant above]
    simp only [started.added.listed_iff, and_true]
    rfl
  refine ⟨general, ?_, ?_⟩
  · rintro ⟨path, resolved⟩ there
    have notGone : ¬ ∀ other, fs.realpath (folderPath ++ [slash]) ≠ .path other :=
      fun none => none path resolved
    have refused : ∀ name : List UInt8, (∀ sanitized, sanitizeName name name.length ≠
        (1, sanitized)) ↔ (sanitizeName name name.length).1 ≠ 1 := fun name =>
      ⟨fun none one => none _ (Prod.ext one rfl), fun none _ same => none (by rw [same])⟩
    rw [general]
    constructor
    · rintro ⟨name, isListed | isShown, missed, reason⟩
      · exact ⟨name, isListed, missed, (refused name).mp (reason.resolve_left notGone)⟩
      · exact absurd missed (there name isShown)
    · rintro ⟨name, isListed, missed, reason⟩
      exact ⟨name, .inl isListed, missed, .inr ((refused name).mpr reason)⟩
  · intro closed gone missing
    rw [general]
    constructor
    · rintro ⟨name, isListed | isShown, -⟩
      · exact ⟨name, isListed⟩
      · rw [shownNames, findFiles, closed, Option.bind_none, Option.getD_none] at isShown
        cases isShown
    · rintro ⟨name, isListed⟩
      obtain ⟨i, entry, here, child, rfl⟩ := isListed
      exact ⟨entry.name, .inl ⟨i, entry, here, child, rfl⟩,
        missing entry.name (invariant.fileName_of_childOf here child), .inl gone⟩

/-- A store is mounted, and two books on it become known. -/
def twoBooksSession (other : List UInt8) : List Request :=
  [.mountRoot 0x10001, .add ⟨false, [0x61], 5⟩ 0 0x10001, .add ⟨false, other, 5⟩ 0 0x10001]

/-- Two files added to the top of a storage have paths. -/
theorem pathInvariant_twoBooks (other : List UInt8) (isName : FileName other) :
    PathInvariant (handlesAfter (fun _ => true) (twoBooksSession other)) :=
  .run (fun _ => true)
    ⟨⟨⟨trivial, by decide⟩, trivial⟩,
      ⟨⟨⟨by decide, by decide, by decide, by decide⟩, by decide +kernel⟩,
        fun nonzero => absurd rfl nonzero⟩,
      ⟨⟨isName, by decide +kernel⟩, fun nonzero => absurd rfl nonzero⟩, trivial⟩

/-- What the directory lists can be opened under its name. -/
theorem directoryNames_book : DirectoryNames bookFileSystem bookPath where
  nonempty := by decide
  names := by
    intro names opened name member
    cases opened
    simp only [List.mem_cons, List.not_mem_nil, or_false] at member
    rcases member with rfl | rfl | rfl
    · exact .inl rfl
    · exact .inr (.inl rfl)
    · exact .inr (.inr ⟨⟨by decide, by decide, by decide, by decide⟩, by decide⟩)

/-- One of the books is there; the other is gone, and its name has two dots in a row. -/
theorem scan_crashes_iff_book :
    scanAndAddFolder bookFileSystem (fun _ => some bookPath) false bookPath 0 0x10001
      (handlesAfter (fun _ => true) (twoBooksSession [0x62, dot, dot])).db = none :=
  ((scan_crashes_iff rfl directoryNames_book
      (pathInvariant_twoBooks _ ⟨by decide, by decide, by decide, by decide⟩)
      (.inl ⟨rfl, rfl⟩) (fun nonzero => absurd rfl nonzero) (by decide +kernel) false).2.1
    ⟨bookPath, rfl⟩ (by decide +kernel)).mpr
    ⟨[0x62, dot, dot], ⟨2, ⟨2, 0, 0x10001, [0x62, dot, dot], false, false, 5, -1⟩,
      by decide +kernel, by decide, rfl⟩, rfl, by decide +kernel⟩

end Nookobo.Mtp
