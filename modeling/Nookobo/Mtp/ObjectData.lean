import Nookobo.Mtp.FileData
import Nookobo.Mtp.Storages
import Nookobo.Mtp.Paths
import Nookobo.Semantics.SeekableFile

/-!
# Objects on their way in and out

`mtp_op_SendObject` gets the first part of an object with the packet that
`mtp_incoming_packet` has read, and reads on until a read comes back short.
`mtp_op_GetObject` sends an object with `send_file_data`. What the host sends is
what it gets back.
-/

namespace Nookobo.Mtp

open Nookobo.Text Nookobo.Semantics FsHandlesDb

/-! ## The data of an object -/

/-- The file while its data come in: what is in it, where the next part goes, `SendObjInfoSize`,
and what is still to be read. -/
structure Intake where
  content : List UInt8
  position : Nat
  left : Int
  pipe : List (List UInt8)

/-- `write` and the count behind it. `takes` is how many bytes of the data the system takes at a
position: where the disk is full it is fewer than there are, or none, and the count is the same. -/
def Intake.write (takes : Nat → List UInt8 → Nat) (data : List UInt8) (intake : Intake) : Intake :=
  let written := data.take (takes intake.position data)
  { intake with
    content := writeAt 0 intake.position written intake.content
    position := intake.position + written.length
    left := intake.left - data.length }

/-- The loop, within a number of rounds, with the length of the last read. `cancel` tells what
each test of `cancel_req` sees, and `fails` which reads return an error. Without a short packet
the responder waits. -/
def receiveLoop (maxPacketSize rdBufferSize : Nat) (takes : Nat → List UInt8 → Nat)
    (cancel fails : Nat → Bool) : Nat → Nat → Int → Intake → Option Intake
  | 0, _, _, _ => none
  | rounds + 1, looks, sz, intake =>
      if sz = rdBufferSize ∧ cancel looks = false ∧ 0 ≤ sz then
        if fails looks then
          receiveLoop maxPacketSize rdBufferSize takes cancel fails rounds (looks + 1) (-1) intake
        else
          (Bulk.readBuffer maxPacketSize rdBufferSize intake.pipe).bind fun (data, pipe) =>
            receiveLoop maxPacketSize rdBufferSize takes cancel fails rounds (looks + 1)
              data.length (Intake.write takes data { intake with pipe := pipe })
      else some intake

/-- What `mtp_op_SendObject` does with a file that is open, and the packet that it is called
with. -/
def receiveData (maxPacketSize rdBufferSize : Nat) (isPartial : Bool)
    (takes : Nat → List UInt8 → Nat) (cancel fails : Nat → Bool) (packet : List UInt8)
    (intake : Intake) : Option Intake :=
  let sz : Int := (packet.length : Int) - headerSize
  let intake := if 0 < sz then intake.write takes (packet.drop headerSize) else intake
  let sz : Int := if sz = (rdBufferSize : Int) - headerSize then rdBufferSize else sz
  let sz : Int := if isPartial ∧ intake.left ≠ 0 then rdBufferSize else sz
  receiveLoop maxPacketSize rdBufferSize takes cancel fails (intake.pipe.length + 2) 0 sz intake

section Receiving

variable {maxPacketSize rdBufferSize : Nat} (positive : 0 < maxPacketSize)
  (nonempty : 0 < rdBufferSize) (whole : maxPacketSize ∣ rdBufferSize)
  {takes : Nat → List UInt8 → Nat} (takesAll : ∀ position data, takes position data = data.length)
  {cancel fails : Nat → Bool} (never : ∀ look, cancel look = false)
  (reads : ∀ look, fails look = false)

include takesAll in
/-- A write that is not cut short. -/
theorem Intake.write_eq (data : List UInt8) (intake : Intake) :
    intake.write takes data =
      { intake with
        content := writeAt 0 intake.position data intake.content
        position := intake.position + data.length
        left := intake.left - data.length } := by
  rw [Intake.write, takesAll, List.take_length]

include takesAll in
/-- Two writes that are not cut short are one. -/
theorem Intake.write_write (first second : List UInt8) (intake : Intake) :
    (intake.write takes first).write takes second = intake.write takes (first ++ second) := by
  simp only [Intake.write_eq takesAll, writeAt_append, List.length_append, Nat.add_assoc,
    Int.natCast_add, Int.sub_sub]

include positive nonempty whole takesAll never reads in
/-- The loop reads what is left of a transfer, and no more. -/
theorem receiveLoop_container (data : List UInt8) (more : List (List UInt8)) {rounds : Nat}
    (looks : Nat) {intake : Intake}
    (arrives : intake.pipe = Bulk.container maxPacketSize data ++ more)
    (enough : data.length / maxPacketSize + 2 ≤ rounds) :
    receiveLoop maxPacketSize rdBufferSize takes cancel fails rounds looks rdBufferSize intake =
      some (Intake.write takes data { intake with pipe := more }) := by
  induction rounds generalizing data looks intake with
  | zero => exact absurd enough (Nat.not_succ_le_zero _)
  | succ rounds ih =>
      rw [receiveLoop, if_pos ⟨rfl, never looks, Int.natCast_nonneg _⟩, reads looks,
        if_neg Bool.false_ne_true, arrives, Bulk.readBuffer_container positive nonempty whole]
      by_cases short : data.length < rdBufferSize
      · rw [if_pos short, Option.bind_some]
        obtain ⟨rounds, rfl⟩ : ∃ left, rounds = left + 1 := ⟨rounds - 1, by
          have := Nat.le_of_succ_le_succ enough
          exact (Nat.sub_add_cancel (Nat.le_trans (Nat.le_add_left ..) this)).symm⟩
        dsimp only
        rw [receiveLoop, if_neg fun both => absurd both.1 (by omega)]
      · rw [if_neg short, Option.bind_some]
        have long := Nat.le_of_not_lt short
        have length : (data.take rdBufferSize).length = rdBufferSize := by
          rw [List.length_take, Nat.min_eq_left long]
        have fewer : (data.drop rdBufferSize).length / maxPacketSize + 2 ≤ rounds := by
          have packet := Nat.le_of_dvd nonempty whole
          have less := Nat.div_le_div_right (c := maxPacketSize)
            (Nat.sub_le_sub_left packet data.length)
          have one := Nat.add_div_right (data.length - maxPacketSize) positive
          rw [Nat.sub_add_cancel (packet.trans long)] at one
          rw [List.length_drop]
          omega
        dsimp only
        rw [length, ih (data.drop rdBufferSize) (looks + 1) rfl fewer]
        change some ((Intake.write takes (data.take rdBufferSize)
          { intake with pipe := more }).write takes (data.drop rdBufferSize)) = _
        rw [Intake.write_write takesAll, List.take_append_drop]

/-- The loop ends at a packet that does not fill its buffer. -/
theorem receiveLoop_stop {rounds looks : Nat} {sz : Int} (short : sz ≠ rdBufferSize)
    (intake : Intake) : receiveLoop maxPacketSize rdBufferSize takes cancel fails (rounds + 1)
      looks sz intake = some intake := by
  rw [receiveLoop, if_neg fun both => short both.1]

/-- The loop takes nothing but packets from the pipe. -/
theorem length_receiveLoop_le {rounds looks : Nat} {sz : Int} {intake after : Intake}
    (runs : receiveLoop maxPacketSize rdBufferSize takes cancel fails rounds looks sz intake =
      some after) : after.pipe.length ≤ intake.pipe.length := by
  induction rounds generalizing looks sz intake with
  | zero =>
      rw [receiveLoop] at runs
      cases runs
  | succ rounds ih =>
      rw [receiveLoop] at runs
      split at runs
      · split at runs
        · exact ih runs
        · obtain ⟨⟨data, pipe⟩, reads, later⟩ := Option.bind_eq_some_iff.mp runs
          exact Nat.le_trans (ih later) (Nat.le_of_lt (Bulk.length_readBuffer_lt reads))
      · cases runs
        exact Nat.le_refl _

include never reads in
/-- A read behind the end of the object takes what is not its own. -/
theorem length_receiveLoop_lt {rounds looks : Nat} {intake after : Intake}
    (runs : receiveLoop maxPacketSize rdBufferSize takes cancel fails rounds looks rdBufferSize
      intake = some after) : after.pipe.length < intake.pipe.length := by
  cases rounds with
  | zero =>
      rw [receiveLoop] at runs
      cases runs
  | succ rounds =>
      rw [receiveLoop, if_pos ⟨rfl, never looks, Int.natCast_nonneg _⟩, reads looks,
        if_neg Bool.false_ne_true] at runs
      obtain ⟨⟨data, pipe⟩, read, later⟩ := Option.bind_eq_some_iff.mp runs
      exact Nat.lt_of_le_of_lt (length_receiveLoop_le later) (Bulk.length_readBuffer_lt read)

/-- What is done with the first packet before the loop goes on. -/
theorem receiveData_eq {header : List UInt8} (isHeader : header.length = headerSize)
    (part : List UInt8) (isPartial : Bool) (intake : Intake) :
    receiveData maxPacketSize rdBufferSize isPartial takes cancel fails (header ++ part) intake =
      receiveLoop maxPacketSize rdBufferSize takes cancel fails (intake.pipe.length + 2) 0
        (if isPartial = true ∧ intake.left ≠ part.length ∨ headerSize + part.length = rdBufferSize
          then (rdBufferSize : Int) else part.length) (intake.write takes part) := by
  have sz : ((header ++ part).length : Int) - headerSize = part.length := by
    rw [List.length_append, isHeader]
    omega
  have writes : (if 0 < (part.length : Int) then intake.write takes part else intake) =
      intake.write takes part := by
    split
    · rfl
    · next empty =>
      have isNil : part = [] := List.length_eq_zero_iff.mp (by omega)
      simp [isNil, Intake.write]
  rw [receiveData, sz, List.drop_left' isHeader, writes]
  congr 1
  have left : (intake.write takes part).left = intake.left - part.length := rfl
  rw [left]
  by_cases stray : isPartial = true ∧ intake.left ≠ part.length
  · have still : isPartial = true ∧ intake.left - part.length ≠ 0 :=
      ⟨stray.1, by have := stray.2; omega⟩
    rw [if_pos still, if_pos (.inl stray)]
  · have settled : ¬ (isPartial = true ∧ intake.left - part.length ≠ 0) := fun both =>
      stray ⟨both.1, by have := both.2; omega⟩
    have full : (part.length : Int) = (rdBufferSize : Int) - headerSize ↔
        isPartial = true ∧ intake.left ≠ part.length ∨ headerSize + part.length = rdBufferSize := by
      rw [or_iff_right stray]
      omega
    rw [if_neg settled]
    exact if_congr full rfl rfl

include positive nonempty whole takesAll never reads in
/-- The object that the host sends is put into the file and nothing else is taken from the pipe,
except where the host announces another size for a part of an object than it sends, and what it
sends does not fill the buffer. -/
theorem receiveData_container_iff (room : headerSize < rdBufferSize) {header : List UInt8}
    (isHeader : header.length = headerSize) (data : List UInt8) (more : List (List UInt8))
    (isPartial : Bool) (content : List UInt8) (offset : Nat) (left : Int) :
    ∃ packet pipe, Bulk.readBuffer maxPacketSize rdBufferSize
        (Bulk.container maxPacketSize (header ++ data) ++ more) = some (packet, pipe) ∧
      (receiveData maxPacketSize rdBufferSize isPartial takes cancel fails packet
          ⟨content, offset, left, pipe⟩ =
            some (Intake.write takes data ⟨content, offset, left, more⟩) ↔
        isPartial = false ∨ left = data.length ∨ rdBufferSize ≤ headerSize + data.length) := by
  have total : (header ++ data).length = headerSize + data.length := by
    rw [List.length_append, isHeader]
  rw [Bulk.readBuffer_container positive nonempty whole, total]
  by_cases short : headerSize + data.length < rdBufferSize
  · rw [if_pos short]
    refine ⟨_, _, rfl, ?_⟩
    rw [receiveData_eq isHeader]
    by_cases stray : isPartial = true ∧ left ≠ data.length
    · rw [if_pos (.inl stray)]
      refine iff_of_false (fun same => ?_) ?_
      · exact absurd (length_receiveLoop_lt never reads same) (Nat.lt_irrefl _)
      · rintro (notPartial | announced | long)
        · rw [notPartial] at stray
          cases stray.1
        · exact stray.2 announced
        · omega
    · rw [if_neg fun either => either.elim stray fun full => by omega, receiveLoop_stop (by omega)]
      refine iff_of_true rfl ?_
      cases isPartial with
      | false => exact .inl rfl
      | true => exact .inr (.inl (by_contra fun differs => stray ⟨rfl, differs⟩))
  · have long := Nat.le_of_not_lt short
    have first : (header ++ data).take rdBufferSize =
        header ++ data.take (rdBufferSize - headerSize) := by
      rw [List.take_append, isHeader, List.take_of_length_le (by omega)]
    have rest : (header ++ data).drop rdBufferSize = data.drop (rdBufferSize - headerSize) := by
      rw [List.drop_append, isHeader, List.drop_of_length_le (by omega), List.nil_append]
    have length : headerSize + (data.take (rdBufferSize - headerSize)).length = rdBufferSize := by
      rw [List.length_take]
      omega
    rw [if_neg short, first, rest]
    refine ⟨_, _, rfl, iff_of_true ?_ (.inr (.inr long))⟩
    rw [receiveData_eq isHeader, if_pos (.inr length),
      receiveLoop_container positive nonempty whole takesAll never reads
        (data.drop (rdBufferSize - headerSize)) more 0 rfl]
    · change some ((Intake.write takes (data.take (rdBufferSize - headerSize))
        ⟨content, offset, left, more⟩).write takes (data.drop (rdBufferSize - headerSize))) = _
      rw [Intake.write_write takesAll, List.take_append_drop]
    · rw [List.length_append, Bulk.length_container positive]
      omega

end Receiving

/-! ## The operations -/

/-- The `file_descriptor` of an entry. It is 0, which is the standard input, until the entry is
opened for the first time, and -1 when `open` has failed or the file is closed. -/
inductive Descriptor where
  | standardInput
  | closed
  | file (path : List UInt8)
deriving DecidableEq, Repr

/-- The part of `mtp_ctx` and of its disk that the operations on objects use: what is in the
files by their paths, the descriptors by the positions of the entries, and the object that was
announced. -/
structure ObjectServer where
  table : StorageTable
  db : FsHandlesDb
  files : List UInt8 → Option (List UInt8)
  descriptors : Nat → Descriptor
  sendObjInfoHandle : Nat
  sendObjInfoSize : Int
  sendObjInfoOffset : Nat

/-- What the system answers: `realpath`, whether `open` works on a file that is there or to be
made, whether `set_storage_giduid` works for a storage, how many bytes a `write` takes, and, for
the standard input, what a read gives and where `lseek64` finds the end. -/
structure Disk where
  realpath : List UInt8 → Resolved
  opens : List UInt8 → Bool
  giduid : Nat → Bool
  takes : Nat → List UInt8 → Nat
  inputPage : Nat → Option (List UInt8)
  inputEnd : Int

namespace ObjectServer

/-- The full path of an entry. -/
def fullPath (disk : Disk) (server : ObjectServer) (entry : FsEntry) : Option FullPath :=
  buildFullPath server.table.rooted server.db disk.realpath
    (server.table.storageRoot entry.storageId) entry

/-- `entry_open`, to make the file empty or to use the one that is there. A file that is open is
used as it is. Where no path is built or the user is not set, the descriptor stays what it was, be
that 0, and is returned. -/
def entryOpen (disk : Disk) (create : Bool) (i : Nat) (entry : FsEntry) (server : ObjectServer) :
    Option (Descriptor × ObjectServer) :=
  match server.descriptors i with
  | .file path => some (.file path, server)
  | unopened =>
      (server.fullPath disk entry).bind fun
        | .crash => none
        | .null => some (unopened, server)
        | .path path =>
            if disk.giduid entry.storageId then
              if disk.opens path && (create || (server.files path).isSome) then
                some (.file path, { server with
                  files := if create then Function.update server.files path (some [])
                    else server.files
                  descriptors := Function.update server.descriptors i (.file path) })
              else
                some (.closed, { server with
                  descriptors := Function.update server.descriptors i .closed })
            else some (unopened, server)

/-- `entry_close`. The standard input is closed like a file; that a later `open` then returns 0 is
left out. -/
def entryClose (i : Nat) (server : ObjectServer) : ObjectServer :=
  { server with descriptors := Function.update server.descriptors i .closed }

/-- What a read of `readSize` bytes at a position gives. -/
def pageOf (disk : Disk) (readSize : Nat) (server : ObjectServer) :
    Descriptor → Nat → Option (List UInt8)
  | .file path, page => (server.files path).map fun file => (file.drop page).take readSize
  | _, page => disk.inputPage page

/-- What is behind a descriptor when data come in; of the standard input nothing is kept. -/
def contentOf (server : ObjectServer) : Descriptor → List UInt8
  | .file path => (server.files path).getD []
  | _ => []

/-- The server when the data are in: `lseek64` to the end gives the entry its size. -/
def received (disk : Disk) (i : Nat) (descriptor : Descriptor) (intake : Intake)
    (server : ObjectServer) : ObjectServer :=
  match descriptor with
  | .file path =>
      { server with
        files := Function.update server.files path (some intake.content)
        db := server.db.updateEntry i fun entry => { entry with size := intake.content.length }
        sendObjInfoSize := intake.left }
  | _ =>
      { server with
        db := server.db.updateEntry i fun entry => { entry with size := disk.inputEnd }
        sendObjInfoSize := intake.left }

/-- `mtp_op_SendObject` with a data packet, in a session; `cancelled` is `cancel_req` at the
end. -/
def sendObject (disk : Disk) (maxPacketSize rdBufferSize : Nat) (isPartial : Bool)
    (cancel fails : Nat → Bool) (cancelled : Bool) (packet : List UInt8)
    (pipe : List (List UInt8)) (server : ObjectServer) :
    Option (Response × List (List UInt8) × ObjectServer) :=
  if server.sendObjInfoHandle = allOnes then some (.invalidObjectHandle, pipe, server)
  else
    match server.db.getEntryByHandle server.table.rooted server.sendObjInfoHandle with
    | none => some (.invalidObjectHandle, pipe, server)
    | some i =>
        (server.db.entries[i]?).bind fun entry =>
          match checkHandleAccess server.table (some entry) true with
          | some response => some (response, pipe, server)
          | none =>
              (server.entryOpen disk (!isPartial) i entry).bind fun
                | (.closed, server) => some (.generalError, pipe, server)
                | (descriptor, server) =>
                    (receiveData maxPacketSize rdBufferSize isPartial disk.takes cancel fails packet
                      ⟨server.contentOf descriptor, server.sendObjInfoOffset,
                        server.sendObjInfoSize, pipe⟩).map fun intake =>
                      let server := server.received disk i descriptor intake
                      (if cancelled then .noResponse else .ok, intake.pipe,
                        if isPartial then server else server.entryClose i)

variable {readSize writeSize : Nat}

/-- `mtp_op_GetObject` in a session, and what it writes. -/
def getObject (disk : Disk) (maxPacketSize txId code : Nat) (cancel : Nat → Bool)
    (cancelled : Bool) (readFileBuffer : Buffer readSize) (wrbuffer : Buffer writeSize)
    (handle : Nat) (server : ObjectServer) :
    Option (Response × List (List UInt8) × ObjectServer) :=
  match server.db.getEntryByHandle server.table.rooted handle with
  | none => some (.invalidObjectHandle, [], server)
  | some i =>
      (server.db.entries[i]?).bind fun entry =>
        match checkHandleAccess server.table (some entry) false with
        | some response => some (response, [], server)
        | none =>
            (buildResponse txId containerTypeData code writeSize [] wrbuffer).bind
              fun (sz, wrbuffer) =>
                if sz < 0 then some (.generalError, [], server)
                else
                  (server.entryOpen disk false i entry).bind fun
                    | (.closed, server) => some (.incompleteTransfer, [], server)
                    | (descriptor, server) =>
                        (sendFileData (server.pageOf disk readSize descriptor) maxPacketSize
                          entry.size 0 entry.size cancel cancelled readFileBuffer wrbuffer).map
                          fun (actualsize, written) =>
                            (if actualsize ≥ 0 then .ok
                              else if actualsize = -2 then .noResponse else .incompleteTransfer,
                              written, server.entryClose i)

end ObjectServer

/-! ## A change that a path does not depend on -/

/-- The same place, name and state. -/
def SameLook (f : FsEntry → FsEntry) : Prop :=
  ∀ entry, (f entry).handle = entry.handle ∧ (f entry).parent = entry.parent ∧
    (f entry).storageId = entry.storageId ∧ (f entry).name = entry.name ∧
    (f entry).isDeleted = entry.isDeleted

/-- A new size is not looked at by any search. -/
theorem sameLook_size (size : Int) : SameLook fun entry => { entry with size := size } :=
  fun _ => ⟨rfl, rfl, rfl, rfl, rfl⟩

section Looks

variable {f : FsEntry → FsEntry} (same : SameLook f) (rooted : Nat → Bool) (db : FsHandlesDb)
  (i : Nat)

include same in
/-- What is not looked at changes no lookup. -/
theorem getEntryByHandle_updateEntry (handle : Nat) :
    (db.updateEntry i f).getEntryByHandle rooted handle = db.getEntryByHandle rooted handle := by
  have tests : (db.updateEntry i f).entryIs (handled rooted handle) =
      db.entryIs (handled rooted handle) := by
    funext j
    rw [entryIs, entryIs, getElem?_updateEntry]
    split
    · cases db.entries[j]? with
      | none => rfl
      | some entry =>
          obtain ⟨sameHandle, -, sameStorage, -, sameState⟩ := same entry
          rw [Option.map_some, Option.any_some, Option.any_some, handled, handled, sameHandle,
            sameStorage, sameState]
    · rfl
  rw [getEntryByHandle, tests]
  rfl

include same in
/-- What is not looked at changes no parent. -/
theorem parentEntry_updateEntry {entry entry' : FsEntry}
    (sameParent : entry'.parent = entry.parent) :
    (parentEntry rooted (db.updateEntry i f) entry').map (fun above => (above.name, above.parent)) =
      (parentEntry rooted db entry).map fun above => (above.name, above.parent) := by
  rw [parentEntry, parentEntry, sameParent, getEntryByHandle_updateEntry same]
  split
  · cases db.getEntryByHandle rooted entry.parent with
    | none => rfl
    | some j =>
        rw [Option.bind_some, Option.bind_some, getElem?_updateEntry]
        split
        · cases db.entries[j]? with
          | none => rfl
          | some above =>
              obtain ⟨-, parent, -, name, -⟩ := same above
              rw [Option.map_some, Option.map_some, Option.map_some, name, parent]
        · rfl
  · rfl

include same in
/-- What is not looked at changes no name of a walk. -/
theorem names_lineage_updateEntry (rounds : Nat) {entry entry' : FsEntry}
    (sameName : entry'.name = entry.name) (sameParent : entry'.parent = entry.parent) :
    ((db.updateEntry i f).lineage rooted rounds entry').map (List.map FsEntry.name) =
      (db.lineage rooted rounds entry).map (List.map FsEntry.name) := by
  induction rounds generalizing entry entry' with
  | zero => rfl
  | succ rounds ih =>
      have above := parentEntry_updateEntry same rooted db i sameParent
      rw [lineage, lineage]
      cases found : parentEntry rooted db entry with
      | none =>
          rw [found, Option.map_none, Option.map_eq_none_iff] at above
          rw [above, Option.map_some, Option.map_some, List.map_singleton, List.map_singleton,
            sameName]
      | some parent =>
          rw [found, Option.map_some] at above
          obtain ⟨parent', found', looks⟩ := Option.map_eq_some_iff.mp above
          obtain ⟨name, higher⟩ := Prod.mk.inj looks
          have walks := ih name higher
          rw [found', Option.map_map, Option.map_map]
          have consName : ∀ first : FsEntry, (List.map FsEntry.name ∘ fun walk => first :: walk) =
              (fun names => first.name :: names) ∘ List.map FsEntry.name := fun _ => rfl
          rw [consName, consName, ← Option.map_map, ← Option.map_map, walks, sameName]

include same in
/-- What is not looked at changes no path. -/
theorem buildFullPath_updateEntry (realpath : List UInt8 → Resolved)
    (rootPath : Option (List UInt8)) {entry entry' : FsEntry}
    (sameName : entry'.name = entry.name) (sameParent : entry'.parent = entry.parent) :
    buildFullPath rooted (db.updateEntry i f) realpath rootPath entry' =
      buildFullPath rooted db realpath rootPath entry := by
  have walks := names_lineage_updateEntry same rooted db i (db.entries.length + 1) sameName
    sameParent
  rw [buildFullPath, buildFullPath, length_updateEntry]
  cases walked : db.lineage rooted (db.entries.length + 1) entry with
  | none =>
      rw [walked, Option.map_none, Option.map_eq_none_iff] at walks
      rw [walks]
      rfl
  | some entries =>
      rw [walked, Option.map_some] at walks
      obtain ⟨entries', walked', names⟩ := Option.map_eq_some_iff.mp walks
      have path : pathOf entries' = pathOf entries := by
        rw [pathOf_eq_joined, pathOf_eq_joined, names]
      rw [walked', Option.map_some, Option.map_some]
      cases rootPath with
      | none => exact congrArg (some ∘ FullPath.path) path
      | some rootPath =>
          exact congrArg some (congrArg₂ (fun path name =>
            resolvePath realpath rootPath (rootPath ++ path) name) path sameName)

end Looks

/-! ## Round trip -/

/-- An object that may be written may be read. -/
theorem checkHandleAccess_read {table : StorageTable} {entry : Option FsEntry}
    (writable : checkHandleAccess table entry true = none) :
    checkHandleAccess table entry false = none := by
  cases entry with
  | none => cases writable
  | some entry =>
      dsimp only [checkHandleAccess] at writable ⊢
      split at writable
      · cases writable
      · split at writable
        · cases writable
        · next known unlocked =>
          rw [if_neg known, if_neg unlocked, Bool.and_false, if_neg Bool.false_ne_true]

/-- The object with a handle can be opened and written. -/
structure Writable (disk : Disk) (server : ObjectServer) (handle i : Nat) (entry : FsEntry)
    (path : List UInt8) : Prop where
  found : server.db.getEntryByHandle server.table.rooted handle = some i
  here : server.db.entries[i]? = some entry
  access : checkHandleAccess server.table (some entry) true = none
  resolved : server.fullPath disk entry = some (.path path)
  user : disk.giduid entry.storageId = true
  opens : disk.opens path = true
  unopened : ∀ other, server.descriptors i ≠ .file other

section RoundTrip

variable {disk : Disk} {server : ObjectServer} {handle i : Nat} {entry : FsEntry}
  {path : List UInt8} (writable : Writable disk server handle i entry path)
  (announced : server.sendObjInfoHandle = handle)
  (given : handle ≠ allOnes) {maxPacketSize rdBufferSize : Nat} (positive : 0 < maxPacketSize)
  (room : headerSize < rdBufferSize) (whole : maxPacketSize ∣ rdBufferSize)
  (takesAll : ∀ position data, disk.takes position data = data.length)
  {cancel fails : Nat → Bool} (never : ∀ look, cancel look = false)
  (reads : ∀ look, fails look = false) {header : List UInt8}
  (isHeader : header.length = headerSize)

include writable in
/-- `entry_open` of an object whose file is there, or is made. -/
theorem entryOpen_eq (create : Bool) (there : (create || (server.files path).isSome) = true) :
    server.entryOpen disk create i entry = some (.file path, { server with
      files := if create then Function.update server.files path (some []) else server.files
      descriptors := Function.update server.descriptors i (.file path) }) := by
  rw [ObjectServer.entryOpen]
  split
  · next other isOpen => exact absurd isOpen (writable.unopened other)
  · rw [writable.resolved, Option.bind_some]
    dsimp only
    rw [if_pos writable.user, writable.opens, Bool.true_and, if_pos there]

/-- The server when an object has been put into its file, which is closed again. -/
def ObjectServer.stored (i : Nat) (path content : List UInt8) (left : Int)
    (server : ObjectServer) : ObjectServer :=
  { server with
    files := Function.update server.files path (some content)
    descriptors := Function.update server.descriptors i .closed
    db := server.db.updateEntry i fun entry => { entry with size := content.length }
    sendObjInfoSize := left }

include writable announced given positive room whole takesAll never reads isHeader in
/-- An object that is sent whole is written to its file. -/
theorem sendObject_spec (data : List UInt8) (more : List (List UInt8)) :
    ∃ packet pipe, Bulk.readBuffer maxPacketSize rdBufferSize
        (Bulk.container maxPacketSize (header ++ data) ++ more) = some (packet, pipe) ∧
      server.sendObject disk maxPacketSize rdBufferSize false cancel fails false packet pipe =
        some (.ok, more, server.stored i path (writeAt 0 server.sendObjInfoOffset data [])
          (server.sendObjInfoSize - data.length)) := by
  obtain ⟨packet, pipe, first, receives⟩ := receiveData_container_iff positive
    (Nat.lt_of_le_of_lt (Nat.zero_le _) room) whole takesAll never reads room isHeader data more
    false [] server.sendObjInfoOffset server.sendObjInfoSize
  refine ⟨packet, pipe, first, ?_⟩
  have opened := entryOpen_eq writable true rfl
  have content : (Function.update server.files path (some [])) path = some ([] : List UInt8) :=
    Function.update_self ..
  rw [ObjectServer.sendObject, announced, if_neg given, writable.found]
  dsimp only
  rw [writable.here, Option.bind_some, writable.access]
  dsimp only
  rw [Bool.not_false, opened, Option.bind_some]
  dsimp only
  rw [ObjectServer.contentOf, if_pos rfl]
  dsimp only
  rw [content, Option.getD_some, receives.mpr (.inl rfl), Option.map_some]
  rw [if_neg Bool.false_ne_true, if_neg Bool.false_ne_true, ObjectServer.entryClose,
    ObjectServer.received, ObjectServer.stored]
  rw [Intake.write_eq takesAll]
  dsimp only
  rw [Function.update_idem, Function.update_idem]

include writable in
/-- An object that has been written can be opened again. -/
theorem Writable.stored (content : List UInt8) (left : Int) :
    Writable disk (server.stored i path content left) handle i
      { entry with size := content.length } path where
  found := (getEntryByHandle_updateEntry (sameLook_size content.length) _ server.db i handle).trans
    writable.found
  here := by
    change (server.db.updateEntry i _).entries[i]? = _
    rw [getElem?_updateEntry, if_pos rfl, writable.here, Option.map_some]
  access := writable.access
  resolved := by
    have sameName : ({ entry with size := content.length } : FsEntry).name = entry.name := rfl
    exact (buildFullPath_updateEntry (sameLook_size content.length) _ server.db i disk.realpath _
      sameName rfl).trans writable.resolved
  user := writable.user
  opens := writable.opens
  unopened := fun other isOpen => by
    change Function.update server.descriptors i Descriptor.closed i = _ at isOpen
    rw [Function.update_self] at isOpen
    cases isOpen

variable {k readSize writeSize : Nat} (small : k < 64) (isPower : readSize = 2 ^ k)
  (fits : writeSize ≤ readSize) (space : headerSize < writeSize) (cut : maxPacketSize ∣ writeSize)
  (exact : maxPacketSize ∣ 2 ^ 32) {content : List UInt8} (bounded : content.length < 2 ^ 64)
  (isFile : server.files path = some content) (size : entry.size = content.length)
  (readFileBuffer : Buffer readSize) (wrbuffer : Buffer writeSize)

include writable positive never small isPower fits space cut exact bounded isFile size in
/-- What is in the file of an object is what the host gets. -/
theorem getObject_spec (closed : server.descriptors i = .closed) (txId code : Nat) :
    ∃ packets, server.getObject disk maxPacketSize txId code cancel false readFileBuffer wrbuffer
        handle = some (.ok, packets, server) ∧
      (Bulk.sent maxPacketSize packets =
          Bulk.container maxPacketSize (dataContainer txId code content) ↔
        ¬ 2 ^ 32 ∣ headerSize + content.length) := by
  subst isPower
  obtain ⟨filled, builds, isHeader⟩ := buildResponse_header txId containerTypeData code
    (Int.le_refl (writeSize : Int)) (by exact_mod_cast space) wrbuffer
  have opened := entryOpen_eq writable false (by rw [isFile]; rfl)
  have reads : ∀ page, ObjectServer.pageOf disk (2 ^ k)
      { server with descriptors := Function.update server.descriptors i (.file path) }
      (.file path) page = some ((content.drop page).take (2 ^ k)) := fun page => by
    rw [ObjectServer.pageOf, isFile, Option.map_some]
  obtain ⟨written, sends, whole⟩ := sendFileData_spec small fits space reads content.length
    (by rwa [Nat.zero_add]) cancel readFileBuffer isHeader positive cut exact never
  have whole' : filePart content 0 content.length = content := List.take_length
  rw [whole'] at sends whole
  refine ⟨written, ?_, whole⟩
  rw [ObjectServer.getObject, writable.found]
  dsimp only
  rw [writable.here, Option.bind_some, checkHandleAccess_read writable.access]
  dsimp only
  rw [builds, Option.bind_some]
  dsimp only
  rw [if_neg (Int.not_lt.mpr (Int.natCast_nonneg _)), opened, Option.bind_some,
    if_neg Bool.false_ne_true]
  dsimp only
  rw [size, sends, Option.map_some]
  dsimp only
  rw [if_pos (Int.natCast_nonneg _), ObjectServer.entryClose]
  dsimp only
  rw [Function.update_idem, ← closed, Function.update_eq_self]

end RoundTrip

/-- An object that the host sends whole is what it gets back, in one container, if its size is not
lost in an `int`. No other file changes, and what the host sends behind it stays on the pipe. The
disk has to take all of each write: what `write` returns is not looked at. -/
theorem object_roundtrip {disk : Disk} {server : ObjectServer} {i : Nat} {entry : FsEntry}
    {path : List UInt8}
    (writable : Writable disk server server.sendObjInfoHandle i entry path)
    (given : server.sendObjInfoHandle ≠ allOnes)
    (takesAll : ∀ position data, disk.takes position data = data.length)
    (front : server.sendObjInfoOffset = 0) {maxPacketSize rdBufferSize readSize writeSize k : Nat}
    (positive : 0 < maxPacketSize) (room : headerSize < rdBufferSize)
    (whole : maxPacketSize ∣ rdBufferSize) (small : k < 64) (isPower : readSize = 2 ^ k)
    (fits : writeSize ≤ readSize) (space : headerSize < writeSize)
    (cut : maxPacketSize ∣ writeSize) (exact : maxPacketSize ∣ 2 ^ 32)
    {cancel fails : Nat → Bool} (never : ∀ look, cancel look = false)
    (reads : ∀ look, fails look = false) {header : List UInt8}
    (isHeader : header.length = headerSize) {data : List UInt8} (bounded : data.length < 2 ^ 64)
    (more : List (List UInt8)) (readFileBuffer : Buffer readSize) (wrbuffer : Buffer writeSize)
    (txId code : Nat) :
    ∃ packet pipe after packets,
      Bulk.readBuffer maxPacketSize rdBufferSize
        (Bulk.container maxPacketSize (header ++ data) ++ more) = some (packet, pipe) ∧
      server.sendObject disk maxPacketSize rdBufferSize false cancel fails false packet pipe =
        some (.ok, more, after) ∧
      after.files = Function.update server.files path (some data) ∧
      after.getObject disk maxPacketSize txId code cancel false readFileBuffer wrbuffer
        server.sendObjInfoHandle = some (.ok, packets, after) ∧
      (Bulk.sent maxPacketSize packets =
          Bulk.container maxPacketSize (dataContainer txId code data) ↔
        ¬ 2 ^ 32 ∣ headerSize + data.length) := by
  obtain ⟨packet, pipe, first, stores⟩ := sendObject_spec writable rfl given positive room whole
    takesAll never reads isHeader data more
  rw [front, writeAt_zero _ (Nat.zero_le _)] at stores
  obtain ⟨packets, gets, sends⟩ := getObject_spec
    (writable.stored data (server.sendObjInfoSize - data.length)) positive never small isPower
    fits space cut exact bounded (Function.update_self ..) rfl readFileBuffer wrbuffer
    (Function.update_self ..) txId code
  exact ⟨packet, pipe, _, packets, first, stores, rfl, gets, sends⟩

/-- A server with a book that is announced. -/
def bookServer : ObjectServer where
  table := (StorageTable.empty.mtpAddStorage (some [slash, 0x6D]) [0x64] (-1) (-1) 0).2
  db := (addEntry ⟨false, [0x61], 0⟩ 0 (slotId 0) initFsDb).2
  files := fun _ => none
  descriptors := fun _ => .standardInput
  sendObjInfoHandle := 1
  sendObjInfoSize := 3
  sendObjInfoOffset := 0

/-- A disk on which every call works and every write is whole. -/
def bookDisk : Disk where
  realpath := .path
  opens := fun _ => true
  giduid := fun _ => true
  takes := fun _ data => data.length
  inputPage := fun _ => none
  inputEnd := -1

/-- The book can be written: it is open, and nothing has been written yet. -/
theorem writable_book : Writable bookDisk bookServer 1 0
    ⟨1, 0, slotId 0, [0x61], false, false, 0, -1⟩ [slash, 0x6D, slash, 0x61] where
  found := by decide +kernel
  here := rfl
  access := by decide +kernel
  resolved := by decide +kernel
  user := rfl
  opens := rfl
  unopened := nofun

/-- Three bytes sent to the book come back. -/
theorem object_roundtrip_book :
    ∃ packet pipe after packets,
      Bulk.readBuffer 8 16 (Bulk.container 8 (List.replicate 12 0 ++ [7, 8, 9]) ++ []) =
        some (packet, pipe) ∧
      bookServer.sendObject bookDisk 8 16 false (fun _ => false) (fun _ => false) false packet
        pipe = some (.ok, [], after) ∧
      after.files = Function.update bookServer.files [slash, 0x6D, slash, 0x61]
        (some [7, 8, 9]) ∧
      after.getObject bookDisk 8 5 0x1009 (fun _ => false) false (Buffer.zeros 16)
        (Buffer.zeros 16) 1 = some (.ok, packets, after) ∧
      (Bulk.sent 8 packets = Bulk.container 8 (dataContainer 5 0x1009 [7, 8, 9]) ↔
        ¬ 2 ^ 32 ∣ headerSize + 3) :=
  object_roundtrip writable_book (by decide) (fun _ _ => rfl) rfl (by decide) (by decide)
    (by decide)
    (show 4 < 64 by decide) rfl (by decide) (by decide) (by decide) (by decide) (fun _ => rfl)
    (fun _ => rfl) rfl (by decide) [] (Buffer.zeros 16) (Buffer.zeros 16) 5 0x1009

end Nookobo.Mtp
