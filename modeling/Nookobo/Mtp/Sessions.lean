import Nookobo.Mtp.Catalogue

/-!
# Whole sessions

What the host can rely on after any sequence of requests, as long as the 32 bit
handles last: a lookup in the hash tables answers as the catalogue does, and
what a handle once named it names for the whole session, or nothing. Two live
objects have one name only after a renaming onto a name that is taken, which
`setObjectPropValue` does not check.
-/

namespace Nookobo.Mtp

open Nookobo.Semantics FsHandlesDb

/-- The requests that may need a new handle. -/
def Request.isAdd : Request → Bool
  | .add .. => true
  | _ => false

/-- A request takes at most one handle from the counter, and only an addition takes one. -/
theorem nextHandle_handleStep_le (state : HandleState) (request : Request) :
    (handleStep state request).db.nextHandle ≤
      state.db.nextHandle + if request.isAdd then 1 else 0 := by
  have onHandle : ∀ (handle : Nat) {change : Nat → FsHandlesDb → FsHandlesDb},
      (∀ i, (change i state.db).nextHandle = state.db.nextHandle) →
      (state.onHandle handle change).db.nextHandle ≤ state.db.nextHandle := by
    intro handle change same
    rw [HandleState.onHandle]
    split
    · exact Nat.le_refl _
    · exact Nat.le_of_eq (same _)
  cases request with
  | mountRoot storageId => exact Nat.le_refl _
  | add fileinfo parent storageId =>
      change (state.db.addEntry fileinfo parent storageId).2.nextHandle ≤ _ + 1
      rw [FsHandlesDb.addEntry]
      split
      · exact Nat.le_succ _
      · exact Nat.mod_le _ _
  | discard handle => exact onHandle handle fun _ => rfl
  | rename handle newFilename =>
      exact onHandle handle fun i => nextHandle_renameEntry state.db i newFilename
  | resize handle size => exact onHandle handle fun _ => rfl
  | unmount storageId => exact Nat.le_of_eq (nextHandle_umountFrom state.db storageId _)
  | setRooted storageId present => exact Nat.le_refl _

/-- There are at least as many entries as handles were given. -/
theorem nextHandle_le_handleStep {state : HandleState}
    (numbered : state.db.nextHandle ≤ state.db.entries.length + 1) (request : Request) :
    (handleStep state request).db.nextHandle ≤
      (handleStep state request).db.entries.length + 1 := by
  have onHandle : ∀ (handle : Nat) {change : Nat → FsHandlesDb → FsHandlesDb},
      (∀ i, (change i state.db).nextHandle = state.db.nextHandle) →
      (∀ i, (change i state.db).entries.length = state.db.entries.length) →
      (state.onHandle handle change).db.nextHandle ≤
        (state.onHandle handle change).db.entries.length + 1 := by
    intro handle change sameNext sameLength
    rw [HandleState.onHandle]
    split
    · exact numbered
    · rw [sameNext, sameLength]
      exact numbered
  have linked : ∀ (db : FsHandlesDb) (entry : FsEntry),
      (db.linkEntry entry).entries.length = db.entries.length + 1 := fun db entry => by
    change (db.entries ++ [entry]).length = _
    rw [List.length_append, List.length_singleton]
  cases request with
  | mountRoot storageId =>
      change _ ≤ (state.db.linkEntry (rootEntry storageId)).entries.length + 1
      rw [linked]
      exact Nat.le_succ_of_le numbered
  | add fileinfo parent storageId =>
      change (state.db.addEntry fileinfo parent storageId).2.nextHandle ≤
        (state.db.addEntry fileinfo parent storageId).2.entries.length + 1
      rw [FsHandlesDb.addEntry]
      split
      · exact numbered
      · rw [FsHandlesDb.allocEntry, linked]
        exact Nat.le_trans (Nat.mod_le _ _) (Nat.succ_le_succ numbered)
  | discard handle => exact onHandle handle (fun _ => rfl) fun i => length_updateEntry ..
  | rename handle newFilename =>
      refine onHandle handle (fun i => nextHandle_renameEntry state.db i newFilename) fun i => ?_
      rw [entries_renameEntry]
      exact length_updateEntry ..
  | resize handle size => exact onHandle handle (fun _ => rfl) fun i => length_updateEntry ..
  | unmount storageId =>
      change (state.db.umountStore storageId).nextHandle ≤
        (state.db.umountStore storageId).entries.length + 1
      rw [umountStore, nextHandle_umountFrom, length_umountFrom]
      exact numbered
  | setRooted storageId present => exact numbered

/-- The catalogue simulates a session, as long as the handles last. -/
theorem Represents.run {requests : List Request} (proper : ∀ request ∈ requests, request.Proper)
    {state : HandleState} {catalogue : CatalogueState}
    (represents : Represents state.db catalogue.registry)
    (sameRoots : state.rooted = catalogue.rooted)
    (few : state.db.nextHandle + requests.countP Request.isAdd + 1 < 2 ^ 32)
    (rooted rooted' : Nat → Bool) :
    Represents ((handleMachine rooted).run state requests).db
        ((catalogueMachine rooted').run catalogue requests).registry ∧
      ((handleMachine rooted).run state requests).rooted =
        ((catalogueMachine rooted').run catalogue requests).rooted := by
  induction requests generalizing state catalogue with
  | nil => exact ⟨represents, sameRoots⟩
  | cons request rest ih =>
      obtain ⟨first, later⟩ := List.forall_mem_cons.mp proper
      rw [List.countP_cons] at few
      have stepped := represents.step sameRoots first (by omega)
      have grown := nextHandle_handleStep_le state request
      refine ih later stepped.1 stepped.2 ?_
      change (handleStep state request).db.nextHandle + _ + 1 < _
      omega

/-- The states after a session. -/
def handlesAfter (rooted : Nat → Bool) (requests : List Request) : HandleState :=
  (handleMachine rooted).run (handleMachine rooted).initial requests

/-- The registry after the same requests. -/
noncomputable def catalogueAfter (rooted : Nat → Bool) (requests : List Request) :
    CatalogueState :=
  (catalogueMachine rooted).run (catalogueMachine rooted).initial requests

/-- A session that does not run out of handles. -/
structure Session (requests : List Request) : Prop where
  proper : ∀ request ∈ requests, request.Proper
  few : requests.countP Request.isAdd + 2 < 2 ^ 32

/-- After a session the database represents the registry of the same requests. -/
theorem Session.represents {requests : List Request} (session : Session requests)
    (rooted : Nat → Bool) :
    Represents (handlesAfter rooted requests).db (catalogueAfter rooted requests).registry ∧
      (handlesAfter rooted requests).rooted = (catalogueAfter rooted requests).rooted :=
  represents_initFsDb.run session.proper rfl
    (by have := session.few; change 1 + _ + 1 < _; omega) rooted rooted

/-- After any session, the hash tables answer as the catalogue does. Under a handle other than 0
they have the one object that the catalogue knows by it, as a search of the whole list has. Under
a name other than that of the roots they have an object of that name whenever there is one, and
where there are not two of them what a search of the whole list has. Handle 0 stands for the root
folders, of which one is found whenever there is one. -/
theorem session_lookups {requests : List Request} (session : Session requests)
    (rooted : Nat → Bool) :
    let state := handlesAfter rooted requests
    let catalogue := catalogueAfter rooted requests
    (∀ handle, handle ≠ 0 →
      ((state.db.getEntryByHandle state.rooted handle).bind
          fun i => state.db.entries[i]?).map objectOf =
        ((catalogue.registry.object handle).filter fun object =>
          catalogue.rooted object.storageId) ∧
      state.db.getEntryByHandle state.rooted handle =
        state.db.entryList.find? (state.db.entryIs (handled state.rooted handle))) ∧
    (∀ name parent storageId, name ≠ [slash] →
      (∀ i, state.db.findEntry name parent storageId = some i → ∃ entry,
        state.db.entries[i]? = some entry ∧ entry.handle ≠ 0 ∧
          catalogue.registry.object entry.handle = some (objectOf entry) ∧
          (objectOf entry).isAt name parent storageId) ∧
      (state.db.findEntry name parent storageId = none ↔
        ∀ handle object, catalogue.registry.object handle = some object →
          ¬ object.isAt name parent storageId) ∧
      (catalogue.registry.AtMostOne (fun object => object.isAt name parent storageId) →
        state.db.findEntry name parent storageId =
          state.db.entryList.find? (state.db.entryIs (named name parent storageId)))) ∧
    (∀ i, state.db.getEntryByHandle state.rooted 0 = some i → ∃ root,
      state.db.entries[i]? = some root ∧ root.handle = 0 ∧ root.name = [slash] ∧
        root.isDeleted = false ∧ state.rooted root.storageId = true) ∧
    (state.db.getEntryByHandle state.rooted 0 = none ↔
      ∀ root ∈ state.db.entries, root.handle = 0 → root.isDeleted = false →
        state.rooted root.storageId = false) := by
  obtain ⟨represents, sameRoots⟩ := session.represents rooted
  refine ⟨fun handle nonzero => ⟨?_, ?_⟩, fun name parent storageId notRoot => ⟨?_, ?_, ?_⟩,
    ?_, ?_⟩
  · rw [← sameRoots]
    exact represents.lookup _ nonzero
  · exact represents.getEntryByHandle_eq_find? _ nonzero
  · intro i found
    obtain ⟨entry, here, selected⟩ := findEntry_eq_some found
    exact ⟨entry, here, represents.object_of_named notRoot here selected⟩
  · have known := represents.find notRoot parent storageId
    rw [Option.eq_none_iff_forall_ne_some]
    constructor
    · intro missed handle object here isAt
      obtain ⟨i, found⟩ := known.mpr ⟨handle, object, here, isAt⟩
      exact missed i found
    · intro none i found
      obtain ⟨handle, object, here, isAt⟩ := known.mp ⟨i, found⟩
      exact none handle object here isAt
  · exact represents.findEntry_eq_find? notRoot
  · intro i found
    obtain ⟨root, here, selected⟩ := getEntryByHandle_eq_some found
    obtain ⟨live, isRoot, hasRoot⟩ := handled_iff.mp selected
    exact ⟨root, here, isRoot, represents.roots i root here isRoot, live, hasRoot⟩
  · rw [getEntryByHandle_eq_none_iff represents.wellFormed]
    refine forall₂_congr fun root _ => ?_
    rw [← Bool.not_eq_true, handled_iff]
    constructor
    · intro missed isRoot live
      exact Bool.eq_false_iff.mpr fun hasRoot => missed ⟨live, isRoot, hasRoot⟩
    · rintro none ⟨live, isRoot, hasRoot⟩
      rw [none isRoot live] at hasRoot
      cases hasRoot

/-- A store is mounted, a book is put on it, and it is renamed. -/
def bookSession : List Request :=
  [.mountRoot 0x10001, .add ⟨false, "a".toUTF8.toList, 5⟩ 0 0x10001,
    .rename 1 "b".toUTF8.toList]

/-- `a` is the name of a file. -/
theorem fileName_a : FileName "a".toUTF8.toList :=
  ⟨by decide +kernel, by decide +kernel, by decide +kernel, by decide +kernel⟩

/-- `b` is the name of a file. -/
theorem fileName_b : FileName "b".toUTF8.toList :=
  ⟨by decide +kernel, by decide +kernel, by decide +kernel, by decide +kernel⟩

/-- The session with two books meets what is asked of one. -/
theorem session_bookSession : Session bookSession where
  proper := by
    intro request member
    simp only [bookSession, List.mem_cons, List.not_mem_nil, or_false] at member
    rcases member with rfl | rfl | rfl
    · trivial
    · exact fileName_a
    · exact ⟨by decide, fileName_b⟩
  few := by decide

/-- The book is found under its handle, and no longer under its old name. -/
theorem session_lookups_bookSession :
    (handlesAfter (fun _ => true) bookSession).db.getEntryByHandle
        (handlesAfter (fun _ => true) bookSession).rooted 1 =
      (handlesAfter (fun _ => true) bookSession).db.entryList.find?
        ((handlesAfter (fun _ => true) bookSession).db.entryIs
          (handled (handlesAfter (fun _ => true) bookSession).rooted 1)) ∧
    ∀ handle object,
      (catalogueAfter (fun _ => true) bookSession).registry.object handle = some object →
        ¬ object.isAt "a".toUTF8.toList 0 0x10001 :=
  have lookups := session_lookups session_bookSession fun _ => true
  ⟨(lookups.1 1 (by decide)).2,
    (lookups.2.1 "a".toUTF8.toList 0 0x10001 (by decide +kernel)).2.1.mp (by decide +kernel)⟩

/-- What stays of an object while it has a handle. -/
def CatalogueObject.SamePlace (early late : CatalogueObject) : Prop :=
  late.parent = early.parent ∧ late.storageId = early.storageId ∧ late.isDir = early.isDir

/-- An object is in the same place as itself. -/
theorem CatalogueObject.SamePlace.refl (object : CatalogueObject) : object.SamePlace object :=
  ⟨rfl, rfl, rfl⟩

/-- Being in the same place carries over two steps. -/
theorem CatalogueObject.SamePlace.trans {first second third : CatalogueObject}
    (one : first.SamePlace second) (two : second.SamePlace third) : first.SamePlace third :=
  ⟨two.1.trans one.1, two.2.1.trans one.2.1, two.2.2.trans one.2.2⟩

/-- A change of the object with a handle that leaves its place alone moves no object. -/
theorem evolves_onHandle (state : CatalogueState) (handle : Nat)
    {change : CatalogueObject → Option CatalogueObject}
    (kept : ∀ early late, change early = some late → early.SamePlace late) :
    Registry.Evolves CatalogueObject.SamePlace state.registry
      (state.onHandle handle change).registry := by
  refine Registry.evolves_revise _ fun number early late becomes => ?_
  split at becomes
  · exact kept early late becomes
  · cases becomes
    exact .refl early

/-- No request moves an object or gives its handle to another. -/
theorem evolves_catalogueStep (state : CatalogueState) (request : Request) :
    Registry.Evolves CatalogueObject.SamePlace state.registry
      (catalogueStep state request).registry := by
  have unchanged := Registry.Evolves.refl CatalogueObject.SamePlace.refl state.registry
  cases request with
  | mountRoot storageId => exact unchanged
  | add fileinfo parent storageId =>
      rw [catalogueStep]
      split
      · exact unchanged
      · exact Registry.evolves_issue .refl _ _
  | discard handle =>
      exact evolves_onHandle state handle fun early late becomes => by cases becomes
  | rename handle newFilename =>
      refine evolves_onHandle state handle fun early late becomes => ?_
      cases becomes
      exact ⟨rfl, rfl, rfl⟩
  | resize handle size =>
      refine evolves_onHandle state handle fun early late becomes => ?_
      cases becomes
      exact ⟨rfl, rfl, rfl⟩
  | unmount storageId =>
      refine Registry.evolves_revise _ fun number early late becomes => ?_
      split at becomes
      · cases becomes
      · cases becomes
        exact .refl early
  | setRooted storageId present => exact unchanged

/-- No requests move an object or give its handle to another. -/
theorem evolves_run (rooted : Nat → Bool) (state : CatalogueState) (requests : List Request) :
    Registry.Evolves CatalogueObject.SamePlace state.registry
      ((catalogueMachine rooted).run state requests).registry := by
  induction requests generalizing state with
  | nil => exact .refl .refl _
  | cons request rest ih =>
      exact (evolves_catalogueStep state request).trans (fun one two => one.trans two) (ih _)

/-- Every entry stays at its position in the pool, with the handle it was made with. -/
def HandlesStay (db after : FsHandlesDb) : Prop :=
  ∀ (i : Nat) (entry : FsEntry), db.entries[i]? = some entry →
    ∃ later, after.entries[i]? = some later ∧ later.handle = entry.handle

/-- Handles stay where nothing happens. -/
theorem HandlesStay.refl (db : FsHandlesDb) : HandlesStay db db :=
  fun _ entry here => ⟨entry, here, rfl⟩

/-- Handles that stay over two steps. -/
theorem HandlesStay.trans {db between after : FsHandlesDb} (first : HandlesStay db between)
    (second : HandlesStay between after) : HandlesStay db after := by
  intro i entry here
  obtain ⟨middle, there, kept⟩ := first i entry here
  obtain ⟨later, there', kept'⟩ := second i middle there
  exact ⟨later, there', kept'.trans kept⟩

/-- A change of one entry moves none and gives no new handle. -/
theorem handlesStay_updateEntry (db : FsHandlesDb) (i : Nat) {f : FsEntry → FsEntry}
    (same : ∀ entry, (f entry).handle = entry.handle) : HandlesStay db (db.updateEntry i f) := by
  intro j entry here
  rw [getElem?_updateEntry, here]
  split
  · exact ⟨f entry, rfl, same entry⟩
  · exact ⟨entry, rfl, rfl⟩

/-- A new entry goes behind the others. -/
theorem handlesStay_linkEntry (db : FsHandlesDb) (entry : FsEntry) :
    HandlesStay db (db.linkEntry entry) :=
  fun _ older here => ⟨older, getElem?_linkEntry_eq_some.mpr (.inl here), rfl⟩

/-- A walk that deletes entries moves none. -/
theorem handlesStay_umountFrom (db : FsHandlesDb) (storageId : Nat) (links : List Nat) :
    HandlesStay db (db.umountFrom storageId links) := by
  induction links generalizing db with
  | nil => exact .refl db
  | cons i rest ih =>
      rw [umountFrom]
      split
      · exact (handlesStay_updateEntry db i (f := deleted) fun _ => rfl).trans (ih _)
      · exact ih db

/-- No request moves an entry or changes its handle. -/
theorem handlesStay_handleStep (state : HandleState) (request : Request) :
    HandlesStay state.db (handleStep state request).db := by
  have onHandle : ∀ (handle : Nat) {change : Nat → FsHandlesDb → FsHandlesDb},
      (∀ i, HandlesStay state.db (change i state.db)) →
      HandlesStay state.db (state.onHandle handle change).db := by
    intro handle change stays
    rw [HandleState.onHandle]
    split
    · exact .refl _
    · exact stays _
  cases request with
  | mountRoot storageId => exact handlesStay_linkEntry state.db _
  | add fileinfo parent storageId =>
      change HandlesStay state.db (state.db.addEntry fileinfo parent storageId).2
      rw [FsHandlesDb.addEntry]
      split
      · exact .refl _
      · exact handlesStay_linkEntry _ _
  | discard handle => exact onHandle handle fun i => handlesStay_updateEntry _ i fun _ => rfl
  | rename handle newFilename =>
      refine onHandle handle fun i j entry here => ?_
      rw [entries_renameEntry]
      exact handlesStay_updateEntry state.db i (f := withName newFilename) (fun _ => rfl) j entry
        here
  | resize handle size => exact onHandle handle fun i => handlesStay_updateEntry _ i fun _ => rfl
  | unmount storageId => exact handlesStay_umountFrom state.db storageId _
  | setRooted storageId present => exact .refl _

/-- Throughout a session every entry stays where it is, with its handle. -/
theorem handlesStay_run (rooted : Nat → Bool) (state : HandleState) (requests : List Request) :
    HandlesStay state.db ((handleMachine rooted).run state requests).db := by
  induction requests generalizing state with
  | nil => exact .refl state.db
  | cons request rest ih => exact (handlesStay_handleStep state request).trans (ih _)

/-- A handle is never given twice: no two entries of the pool, which keeps the deleted ones, have
one handle other than 0. What a lookup finds under a handle that had been given is the entry it
was given to, not deleted in between, and still in its folder. -/
theorem handle_never_reused (first second : List Request) (session : Session (first ++ second))
    (rooted : Nat → Bool) :
    let before := handlesAfter rooted first
    let after := handlesAfter rooted (first ++ second)
    (∀ (i j : Nat) (one two : FsEntry), after.db.entries[i]? = some one →
      after.db.entries[j]? = some two → one.handle ≠ 0 → one.handle = two.handle → i = j) ∧
    ∀ handle, handle ≠ 0 → handle < before.db.nextHandle →
      ∀ i, after.db.getEntryByHandle after.rooted handle = some i →
      ∃ early late, before.db.entries[i]? = some early ∧ after.db.entries[i]? = some late ∧
        early.handle = handle ∧ late.handle = handle ∧ early.isDeleted = false ∧
        late.isDeleted = false ∧ late.parent = early.parent ∧
        late.storageId = early.storageId ∧ late.isDir = early.isDir := by
  have earlier : Session first :=
    ⟨fun request member => session.proper request (List.mem_append_left _ member), by
      have few := session.few
      rw [List.countP_append] at few
      omega⟩
  obtain ⟨before, -⟩ := earlier.represents rooted
  obtain ⟨after, -⟩ := session.represents rooted
  refine ⟨fun i j one two here there nonzero same => after.unique i j one two here there same
    nonzero, ?_⟩
  intro handle nonzero given i found
  obtain ⟨late, here, selected⟩ := getEntryByHandle_eq_some found
  obtain ⟨live, isHandle, -⟩ := handled_iff.mp selected
  have isLate : (catalogueAfter rooted (first ++ second)).registry.object handle =
      some (objectOf late) :=
    (after.object _ _).mpr ⟨nonzero, i, late, here, isHandle, by
      rw [visible, live, if_neg Bool.false_ne_true]⟩
  have evolves := evolves_run rooted (catalogueAfter rooted first) second
  rw [catalogueAfter, ← Machine.run_append] at evolves
  obtain ⟨object, present, same⟩ := evolves.old handle (by
    rw [← before.next] at given
    exact given) _ isLate
  obtain ⟨-, j, early, there, isHandle', shows⟩ := (before.object _ _).mp present
  -- the entry of that object is still at its position, so it is the one that is found
  have stays := handlesStay_run rooted (handlesAfter rooted first) second
  rw [handlesAfter, ← Machine.run_append] at stays
  obtain ⟨later, there', kept⟩ := stays j early there
  have position : i = j := after.unique i j late later here there'
    (isHandle.trans (kept.trans isHandle').symm) (isHandle ▸ nonzero)
  subst position
  rw [visible] at shows
  split at shows
  · cases shows
  · next alive =>
    cases shows
    exact ⟨early, late, there, here, isHandle', isHandle, by simpa using alive, live, same⟩

/-- The first book keeps its handle and its place while a second one comes. -/
theorem handle_never_reused_bookSession :
    ∃ early late : FsEntry,
      (handlesAfter (fun _ => true) (bookSession.take 2)).db.entries[1]? = some early ∧
        (handlesAfter (fun _ => true) bookSession).db.entries[1]? = some late ∧
        early.handle = 1 ∧ late.handle = 1 ∧ early.isDeleted = false ∧
        late.isDeleted = false ∧ late.parent = early.parent ∧
        late.storageId = early.storageId ∧ late.isDir = early.isDir :=
  (handle_never_reused (bookSession.take 2) (bookSession.drop 2) session_bookSession
    fun _ => true).2 1 (by decide) (by decide +kernel) 1 (by decide +kernel)

/-! ## One name, one object -/

/-- No two live objects have one name in one folder. -/
def NamesUnique (db : FsHandlesDb) : Prop :=
  ∀ (i j : Nat) (first second : FsEntry), db.entries[i]? = some first →
    db.entries[j]? = some second → first.handle ≠ 0 → second.handle ≠ 0 →
    first.isDeleted = false → second.isDeleted = false → first.name = second.name →
    first.parent = second.parent → first.storageId = second.storageId → i = j

/-- A renaming goes to a name that no other live object of the folder has. -/
def RenamesToFree (state : HandleState) : Request → Prop
  | .rename handle newFilename =>
      ∀ (i : Nat) (entry : FsEntry), state.db.getEntryByHandle state.rooted handle = some i →
        state.db.entries[i]? = some entry →
        ∀ (j : Nat) (other : FsEntry), state.db.entries[j]? = some other →
          named newFilename entry.parent entry.storageId other = true → j = i
  | _ => True

/-- Entries that are renamed at most. -/
theorem NamesUnique.change {db after : FsHandlesDb} (unique : NamesUnique db)
    (f : Nat → FsEntry → FsEntry)
    (entries : ∀ i : Nat, after.entries[i]? = (db.entries[i]?).map (f i))
    (same : ∀ i entry, (f i entry).handle = entry.handle ∧ (f i entry).name = entry.name ∧
      (f i entry).parent = entry.parent ∧ (f i entry).storageId = entry.storageId ∧
      (entry.isDeleted = true → (f i entry).isDeleted = true)) :
    NamesUnique after := by
  intro i j first second one two nonzero nonzero' live live' name parent storage
  rw [entries] at one two
  obtain ⟨old, there, rfl⟩ := Option.map_eq_some_iff.mp one
  obtain ⟨old', there', rfl⟩ := Option.map_eq_some_iff.mp two
  obtain ⟨handle, name₁, parent₁, storage₁, gone⟩ := same i old
  obtain ⟨handle', name₂, parent₂, storage₂, gone'⟩ := same j old'
  have alive : old.isDeleted = false := by
    cases deleted : old.isDeleted with
    | false => rfl
    | true => rw [gone deleted] at live; cases live
  have alive' : old'.isDeleted = false := by
    cases deleted : old'.isDeleted with
    | false => rfl
    | true => rw [gone' deleted] at live'; cases live'
  exact unique i j old old' there there' (handle ▸ nonzero) (handle' ▸ nonzero') alive alive'
    (by rw [← name₁, name, name₂]) (by rw [← parent₁, parent, parent₂])
    (by rw [← storage₁, storage, storage₂])

/-- A new entry has a name of its own. -/
theorem NamesUnique.addEntry {db : FsHandlesDb} (wellFormed : WellFormed db)
    (unique : NamesUnique db) (fileinfo : FileFoundInfo) (parent storageId : Nat) :
    NamesUnique (db.addEntry fileinfo parent storageId).2 := by
  rw [FsHandlesDb.addEntry]
  split
  · exact unique
  · next missed =>
    have free := (findEntry_eq_none_iff wellFormed _ parent storageId).mp missed
    intro i j first second one two nonzero nonzero' live live' name parent' storage
    rcases getElem?_linkEntry_eq_some.mp one with old | ⟨last, rfl⟩
    · rcases getElem?_linkEntry_eq_some.mp two with old' | ⟨-, rfl⟩
      · exact unique i j first second old old' nonzero nonzero' live live' name parent' storage
      · have taken := free first (List.mem_of_getElem? old)
        rw [named_iff.mpr ⟨name, parent', storage, live⟩] at taken
        cases taken
    · rcases getElem?_linkEntry_eq_some.mp two with old' | ⟨last', -⟩
      · have taken := free second (List.mem_of_getElem? old')
        rw [named_iff.mpr ⟨name.symm, parent'.symm, storage.symm, live'⟩] at taken
        cases taken
      · rw [last, last']

/-- A new root folder shares its name with no object in its place. -/
theorem NamesUnique.allocRootEntry {db : FsHandlesDb} (unique : NamesUnique db)
    (storageId : Nat) : NamesUnique (db.allocRootEntry storageId) := by
  intro i j first second one two nonzero nonzero'
  rcases getElem?_linkEntry_eq_some.mp one with old | ⟨-, rfl⟩
  · rcases getElem?_linkEntry_eq_some.mp two with old' | ⟨-, rfl⟩
    · exact unique i j first second old old' nonzero nonzero'
    · exact absurd rfl nonzero'
  · exact absurd rfl nonzero

/-- A renaming keeps the names unique exactly when it goes to a free one. -/
theorem namesUnique_renameEntry_iff {db : FsHandlesDb} (unique : NamesUnique db) {i : Nat}
    {entry : FsEntry} (here : db.entries[i]? = some entry) (live : entry.isDeleted = false)
    (nonzero : entry.handle ≠ 0) {newFilename : List UInt8}
    (roots : ∀ (j : Nat) (other : FsEntry), db.entries[j]? = some other → other.handle = 0 →
      other.name ≠ newFilename) :
    NamesUnique (db.renameEntry i newFilename) ↔
      ∀ (j : Nat) (other : FsEntry), db.entries[j]? = some other →
        named newFilename entry.parent entry.storageId other = true → j = i := by
  have entries : ∀ j : Nat, (db.renameEntry i newFilename).entries[j]? =
      if i = j then (db.entries[j]?).map (withName newFilename) else db.entries[j]? := by
    intro j
    rw [entries_renameEntry]
    exact getElem?_updateEntry db i j _
  have renamed : (db.renameEntry i newFilename).entries[i]? =
      some (withName newFilename entry) := by
    rw [entries, if_pos rfl, here]
    rfl
  constructor
  · intro still j other there taken
    obtain ⟨name, parent, storage, alive⟩ := named_iff.mp taken
    by_contra differs
    have kept : (db.renameEntry i newFilename).entries[j]? = some other := by
      rw [entries, if_neg (Ne.symm differs)]
      exact there
    have isObject : other.handle ≠ 0 := fun root => roots j other there root name
    exact differs (still j i other _ kept renamed isObject nonzero alive live name parent storage)
  · intro free
    -- an entry other than the renamed one is as it was
    have older : ∀ {j : Nat} {other : FsEntry}, j ≠ i →
        (db.renameEntry i newFilename).entries[j]? = some other → db.entries[j]? = some other := by
      intro j other differs there
      rwa [entries, if_neg (Ne.symm differs)] at there
    intro j k first second one two isObject isObject' alive alive' name parent storage
    by_cases isFirst : j = i
    · by_cases isSecond : k = i
      · rw [isFirst, isSecond]
      · rw [isFirst, renamed] at one
        cases one
        have same := free k second (older isSecond two)
          (named_iff.mpr ⟨name.symm, parent.symm, storage.symm, alive'⟩)
        exact absurd same isSecond
    · by_cases isSecond : k = i
      · rw [isSecond, renamed] at two
        cases two
        have same := free j first (older isFirst one)
          (named_iff.mpr ⟨name, parent, storage, alive⟩)
        exact absurd same isFirst
      · exact unique j k first second (older isFirst one) (older isSecond two) isObject isObject'
          alive alive' name parent storage

/-- A request that does not run out of handles. -/
def Allowed (state : HandleState) (request : Request) : Prop :=
  request.Proper ∧ state.db.nextHandle + 1 < 2 ^ 32

/-- A request leaves names unique exactly when a renaming is to a free name. -/
theorem namesUnique_handleStep_iff {state : HandleState} {registry : Registry CatalogueObject}
    (represents : Represents state.db registry) (unique : NamesUnique state.db)
    {request : Request} (proper : request.Proper) :
    NamesUnique (handleStep state request).db ↔ RenamesToFree state request := by
  have onHandle : ∀ (handle : Nat) {f : FsEntry → FsEntry},
      (∀ entry, (f entry).handle = entry.handle ∧ (f entry).name = entry.name ∧
        (f entry).parent = entry.parent ∧ (f entry).storageId = entry.storageId ∧
        (entry.isDeleted = true → (f entry).isDeleted = true)) →
      NamesUnique (state.onHandle handle fun i db => db.updateEntry i f).db := by
    intro handle f same
    rw [HandleState.onHandle]
    split
    · exact unique
    · next i _ =>
      refine unique.change (fun j => if i = j then f else id) (fun j => ?_) fun j entry => ?_
      · rw [getElem?_updateEntry]
        split <;> simp
      · split
        · exact same entry
        · exact ⟨rfl, rfl, rfl, rfl, id⟩
  cases request with
  | mountRoot storageId => exact iff_of_true (unique.allocRootEntry storageId) trivial
  | add fileinfo parent storageId =>
      exact iff_of_true (unique.addEntry represents.wellFormed fileinfo parent storageId) trivial
  | discard handle =>
      exact iff_of_true (onHandle handle fun _ => ⟨rfl, rfl, rfl, rfl, fun _ => rfl⟩) trivial
  | rename handle newFilename =>
      rw [handleStep, HandleState.onHandle]
      split
      · next missed =>
        exact iff_of_true unique fun i entry found => by rw [missed] at found; cases found
      · next i found =>
        obtain ⟨entry, here, selected⟩ := getEntryByHandle_eq_some found
        obtain ⟨live, isHandle, -⟩ := handled_iff.mp selected
        have notRoot : ∀ (j : Nat) (other : FsEntry), state.db.entries[j]? = some other →
            other.handle = 0 → other.name ≠ newFilename := fun j other there root name =>
          proper.2.ne_slash (name.symm.trans (represents.roots j other there root))
        rw [namesUnique_renameEntry_iff unique here live (isHandle ▸ proper.1) notRoot]
        constructor
        · intro free k other found' there
          rw [found] at found'
          cases found'
          rw [here] at there
          cases there
          exact free
        · intro free
          exact free i entry found here
  | resize handle size =>
      exact iff_of_true (onHandle handle fun _ => ⟨rfl, rfl, rfl, rfl, id⟩) trivial
  | unmount storageId =>
      refine iff_of_true (unique.change
        (fun _ entry => if stored storageId entry then deleted entry else entry)
        (getElem?_umountStore represents.wellFormed storageId) fun i entry => ?_) trivial
      split
      · exact ⟨rfl, rfl, rfl, rfl, fun _ => rfl⟩
      · exact ⟨rfl, rfl, rfl, rfl, id⟩
  | setRooted storageId present => exact iff_of_true unique trivial

/-- What keeps the names unique, with the objects that the database stands for. -/
structure NamesInvariant (state : HandleState) : Prop where
  unique : NamesUnique state.db
  represents : ∃ catalogue : CatalogueState, Represents state.db catalogue.registry ∧
    state.rooted = catalogue.rooted

/-- The empty database has unique names. -/
theorem namesInvariant_initial (rooted : Nat → Bool) :
    NamesInvariant (handleMachine rooted).initial where
  unique := by
    intro i j first second here
    cases here
  represents := ⟨⟨Registry.empty 1, rooted⟩, represents_initFsDb, rfl⟩

/-- A request in order, to free names, keeps names unique. -/
theorem NamesInvariant.step {state : HandleState} {request : Request}
    (invariant : NamesInvariant state) (allowed : Allowed state request)
    (free : RenamesToFree state request) : NamesInvariant (handleStep state request) := by
  obtain ⟨catalogue, represents, sameRoots⟩ := invariant.represents
  exact ⟨(namesUnique_handleStep_iff represents invariant.unique allowed.1).mpr free, _,
    represents.step sameRoots allowed.1 allowed.2⟩

/-- Names stay unique in a session that renames to free names only. -/
theorem NamesUnique.run {requests : List Request} (rooted : Nat → Bool)
    (allowed : (handleMachine rooted).StepsMeet Allowed (handleMachine rooted).initial requests)
    (free : (handleMachine rooted).StepsMeet RenamesToFree (handleMachine rooted).initial
      requests) : NamesUnique (handlesAfter rooted requests).db :=
  (Machine.run_of_invariant NamesInvariant
    (fun _ _ holds meets => holds.step meets.1 meets.2) (namesInvariant_initial rooted)
    (allowed.and free)).unique

/-- No two live objects share a name in a folder, throughout a session, exactly when every
renaming goes to a name that is free: `setObjectPropValue` is the one that does not look. -/
theorem names_unique_iff {requests : List Request} (rooted : Nat → Bool)
    (allowed : (handleMachine rooted).StepsMeet Allowed (handleMachine rooted).initial requests) :
    (handleMachine rooted).Always (fun state => NamesUnique state.db)
        (handleMachine rooted).initial requests ↔
      (handleMachine rooted).StepsMeet RenamesToFree (handleMachine rooted).initial requests := by
  refine Machine.always_iff_stepsMeet NamesInvariant (fun _ holds => holds.unique) ?_ ?_
    (namesInvariant_initial rooted) allowed
  · exact fun state request invariant meets free => invariant.step meets free
  · rintro state request invariant ⟨proper, -⟩ taken still
    obtain ⟨catalogue, represents, -⟩ := invariant.represents
    exact taken ((namesUnique_handleStep_iff represents invariant.unique proper).mp still)

/-- The session with two books keeps names unique, and renames to free names only. -/
theorem names_unique_bookSession :
    (handleMachine fun _ => true).Always (fun state => NamesUnique state.db)
        (handleMachine fun _ => true).initial bookSession ↔
      (handleMachine fun _ => true).StepsMeet RenamesToFree
        (handleMachine fun _ => true).initial bookSession :=
  names_unique_iff (fun _ => true)
    ⟨⟨trivial, by decide⟩, ⟨fileName_a, by decide +kernel⟩,
      ⟨⟨by decide, fileName_b⟩, by decide +kernel⟩, trivial⟩

end Nookobo.Mtp
