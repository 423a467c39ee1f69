import Mathlib.Algebra.BigOperators.Ring.List
import Mathlib.Data.Nat.Bitwise
import Nookobo.Mtp.ObjectHandles

/-!
# Sending a file

`send_file_data` cuts a part of a file into blocks of the size of the USB buffer,
the first one shorter by the header. It reads the file by pages, and a block
that crosses a page is put together from two. Between the blocks it looks for a
cancellation. What is sent is one container with exactly the part that was
asked for, as far as the file has it.
-/

namespace Nookobo.Mtp

open Nookobo.Text Nookobo.Semantics

variable {readSize writeSize : Nat}

/-! ## The loop -/

/-- `position & ~(read_file_buffer_size - 1)` of 64 bits. -/
def pageStart (readSize position : Nat) : Nat := position &&& (2 ^ 64 - readSize)

/-- `position & (read_file_buffer_size - 1)` -/
def pageIndex (readSize position : Nat) : Nat := position &&& (readSize - 1)

/-- `memcpy` between the arrays; it stays in both, or has no result. -/
def memcpy (dest : Buffer writeSize) (destOfs : Nat) (src : Buffer readSize) (srcOfs : Nat)
    (count : Int) : Option (Buffer writeSize) :=
  if count < 0 ∨ readSize < srcOfs + count.toNat then none
  else dest.putBytes destOfs ((src.bytes.drop srcOfs).take count.toNat)

/-- The variables of `send_file_data`. `bufIndex` is `none` for -1. -/
structure Pump (readSize writeSize : Nat) where
  wrbuffer : Buffer writeSize
  readFileBuffer : Buffer readSize
  bufIndex : Option Nat
  j : Nat
  ofs : Nat

/-- `entry_read` of a page; `readAt` gives what `read` stores, or nothing where it fails. -/
def loadPage (readAt : Nat → Option (List UInt8)) (page : Nat) (buffer : Buffer readSize) :
    Option (Option (Buffer readSize)) :=
  match readAt page with
  | none => some none
  | some bytes => (buffer.putBytes 0 bytes).map some

/-- One round of the loop up to `write_usb`, with the block that is to be written. The inner
`none` is a failed read. -/
def pumpRound (readAt : Nat → Option (List UInt8)) (offset : Nat) (actualsize : Int)
    (pump : Pump readSize writeSize) : Option (Option (Pump readSize writeSize × List UInt8)) :=
  let blocksize : Int :=
    if pump.j + ((writeSize : Int) - pump.ofs) < actualsize then writeSize - pump.ofs
    else actualsize - pump.j
  let page := pageStart readSize (offset + pump.j)
  let ioBufferIndex := pageIndex readSize (offset + pump.j)
  let loaded :=
    if pump.bufIndex = some page then some (some pump.readFileBuffer)
    else loadPage readAt page pump.readFileBuffer
  loaded.bind fun
    | none => some none
    | some readFileBuffer =>
        let j := (pump.j + blocksize).toNat
        let ofs := (pump.ofs + blocksize).toNat
        if ioBufferIndex + blocksize < readSize then
          if pump.ofs = 0 then
            some (some (⟨pump.wrbuffer, readFileBuffer, some page, j, 0⟩,
              (readFileBuffer.bytes.drop ioBufferIndex).take ofs))
          else
            (memcpy pump.wrbuffer pump.ofs readFileBuffer ioBufferIndex blocksize).map
              fun wrbuffer =>
                some (⟨wrbuffer, readFileBuffer, some page, j, 0⟩, wrbuffer.bytes.take ofs)
        else
          let firstPartSize := blocksize - (ioBufferIndex + blocksize - readSize)
          (memcpy pump.wrbuffer pump.ofs readFileBuffer ioBufferIndex firstPartSize).bind
            fun wrbuffer =>
              (loadPage readAt (page + readSize) readFileBuffer).bind fun
                | none => some none
                | some readFileBuffer =>
                    (memcpy wrbuffer (pump.ofs + firstPartSize.toNat) readFileBuffer 0
                      (blocksize - firstPartSize)).map fun wrbuffer =>
                        some (⟨wrbuffer, readFileBuffer, some (page + readSize), j, 0⟩,
                          wrbuffer.bytes.take ofs)

/-- The loop, within a number of rounds: what is written, and whether a read failed. `cancel`
tells what each look at `cancel_req` sees: one before a block is written, one behind it. -/
def pumpLoop (readAt : Nat → Option (List UInt8)) (offset : Nat) (actualsize : Int)
    (cancel : Nat → Bool) : Nat → Nat → Pump readSize writeSize →
      Option (List (List UInt8) × Bool)
  | 0, _, _ => none
  | rounds + 1, looks, pump =>
      (pumpRound readAt offset actualsize pump).bind fun
        | none => some ([], true)
        | some (pump, block) =>
            let written := if cancel looks then [] else [block]
            if pump.j < actualsize ∧ cancel (looks + 1) = false then
              (pumpLoop readAt offset actualsize cancel rounds (looks + 2) pump).map
                fun (more, failed) => (written ++ more, failed)
            else some (written, false)

/-- What is sent of a file of this size. -/
def actualSize (entrySize offset maxsize : Int) : Int :=
  if offset ≥ entrySize then 0
  else if offset + maxsize > entrySize then entrySize - offset
  else maxsize

/-- The length in the header of a container. -/
def containerLength (total : Nat) : Nat := if 0x100000000 ≤ total then 0xFFFFFFFF else total

/-- `send_file_data` of a file that can be opened, with what it returns and writes.
`cancelled` is `cancel_req` under the mutex at the end. -/
def sendFileData (readAt : Nat → Option (List UInt8)) (maxPacketSize : Nat) (entrySize : Int)
    (offset : Nat) (maxsize : Int) (cancel : Nat → Bool) (cancelled : Bool)
    (readFileBuffer : Buffer readSize) (wrbuffer : Buffer writeSize) :
    Option (Int × List (List UInt8)) :=
  let actualsize := actualSize entrySize offset maxsize
  (poke32 0 writeSize (containerLength (headerSize + actualsize).toNat) wrbuffer).bind
    fun (_, wrbuffer) =>
      (pumpLoop readAt offset actualsize cancel (actualsize.toNat + 1) 0
        ⟨wrbuffer, readFileBuffer, none, 0, headerSize⟩).map fun (written, failed) =>
          if failed then (-1, written)
          else if cancelled then (-2, written)
          else (actualsize, written ++
            zeroLengthPacket maxPacketSize ((headerSize + actualsize).toNat % 2 ^ 32))

/-! ## Pages -/

/-- With a power of two, the mask is a remainder. -/
theorem pageIndex_eq (k position : Nat) : pageIndex (2 ^ k) position = position % 2 ^ k :=
  Nat.and_two_pow_sub_one_eq_mod position k

/-- With a power of two, the mask takes the remainder away. -/
theorem pageStart_eq {k position : Nat} (small : k ≤ 64) (bounded : position < 2 ^ 64) :
    pageStart (2 ^ k) position = position - position % 2 ^ k := by
  rw [pageStart]
  have mask : 2 ^ 64 - 2 ^ k = 2 ^ k * (2 ^ (64 - k) - 1) := by
    rw [Nat.mul_sub_one, ← Nat.pow_add, Nat.add_sub_cancel' small]
  have page : position - position % 2 ^ k = 2 ^ k * (position / 2 ^ k) := by
    have whole := Nat.div_add_mod position (2 ^ k)
    omega
  rw [mask, page]
  refine Nat.eq_of_testBit_eq fun i => ?_
  rw [Nat.testBit_and, Nat.testBit_two_pow_mul, Nat.testBit_two_pow_mul,
    Nat.testBit_two_pow_sub_one, Nat.testBit_div_two_pow]
  by_cases high : k ≤ i
  · rw [Nat.sub_add_cancel high]
    by_cases inside : i < 64
    · simp [high, show i - k < 64 - k by omega]
    · have zero : position.testBit i = false :=
        Nat.testBit_lt_two_pow (Nat.lt_of_lt_of_le bounded
          (Nat.pow_le_pow_right (by decide) (by omega)))
      simp [zero]
  · simp [high]

section Pages

variable {file : List UInt8} {readAt : Nat → Option (List UInt8)}
  (reads : ∀ page, readAt page = some ((file.drop page).take readSize))

/-- The buffer holds a page of the file, as far as the file goes. -/
def PageLoaded (file : List UInt8) (page : Nat) (buffer : Buffer readSize) : Prop :=
  (file.drop page).take readSize <+: buffer.bytes

include reads in
/-- Loading a page fills the buffer from there on. -/
theorem loadPage_spec (page : Nat) (buffer : Buffer readSize) :
    ∃ after, loadPage readAt page buffer = some (some after) ∧ PageLoaded file page after := by
  obtain ⟨after, stores, shape⟩ := buffer.putBytes_of_fits 0 ((file.drop page).take readSize) (by
    rw [Nat.zero_add]
    exact List.length_take_le ..)
  refine ⟨after, ?_, ?_⟩
  · rw [loadPage, reads]
    dsimp only
    rw [stores]
    rfl
  · rw [PageLoaded, shape, List.take_zero, List.nil_append]
    exact List.prefix_append ..

/-- A part of the page is a part of the file. -/
theorem PageLoaded.slice {page : Nat} {buffer : Buffer readSize}
    (loaded : PageLoaded file page buffer) (index count : Nat) (inPage : index + count ≤ readSize)
    (inFile : page + index + count ≤ file.length ∨ count = 0) :
    (buffer.bytes.drop index).take count = (file.drop (page + index)).take count := by
  obtain inFile | rfl := inFile
  case inr => rw [List.take_zero, List.take_zero]
  obtain ⟨rest, shape⟩ := loaded
  have front : buffer.bytes.take (index + count) = (file.drop page).take (index + count) := by
    rw [← shape, List.take_append_of_le_length, List.take_take, Nat.min_eq_left inPage]
    rw [List.length_take, List.length_drop]
    omega
  calc (buffer.bytes.drop index).take count
      = (buffer.bytes.take (index + count)).drop index := by
        rw [List.drop_take, Nat.add_sub_cancel_left]
    _ = (file.drop (page + index)).take count := by
        rw [front, List.drop_take, Nat.add_sub_cancel_left, List.drop_drop]

/-- `memcpy` inside both buffers copies its bytes behind those already there. -/
theorem memcpy_spec (dest : Buffer writeSize) {destOfs srcOfs count : Nat} (src : Buffer readSize)
    (inSource : srcOfs + count ≤ readSize) (inDest : destOfs + count ≤ writeSize) :
    ∃ after, memcpy dest destOfs src srcOfs count = some after ∧
      after.bytes.take (destOfs + count) =
        dest.bytes.take destOfs ++ (src.bytes.drop srcOfs).take count := by
  have length : ((src.bytes.drop srcOfs).take count).length = count := by
    rw [List.length_take, List.length_drop, src.length_bytes]
    omega
  obtain ⟨after, stores, shape⟩ := dest.putBytes_of_fits destOfs
    ((src.bytes.drop srcOfs).take count) (by omega)
  have taken := Written.take (by omega) shape
  rw [length] at taken
  refine ⟨after, ?_, taken⟩
  rw [memcpy, Int.toNat_natCast, if_neg (by omega)]
  exact stores

end Pages

/-! ## A round -/

section Round

variable {k : Nat} {file : List UInt8} {readAt : Nat → Option (List UInt8)}

/-- The page that is said to be loaded is. -/
def Pump.Loaded (file : List UInt8) (pump : Pump readSize writeSize) : Prop :=
  ∀ page, pump.bufIndex = some page → PageLoaded file page pump.readFileBuffer

/-- A block is what is in the buffer in front of it, and the next part of the file. -/
theorem pumpRound_spec (small : k < 64)
    (reads : ∀ page, readAt page = some ((file.drop page).take (2 ^ k)))
    (fits : writeSize ≤ 2 ^ k) {offset actual : Nat}
    (inFile : offset + actual ≤ file.length ∨ actual = 0) (bounded : offset + actual < 2 ^ 64)
    {pump : Pump (2 ^ k) writeSize} (loaded : pump.Loaded file)
    (open' : pump.ofs < writeSize) (left : pump.j ≤ actual) :
    let count := min (writeSize - pump.ofs) (actual - pump.j)
    ∃ after, pumpRound readAt offset actual pump = some (some (after,
        pump.wrbuffer.bytes.take pump.ofs ++ (file.drop (offset + pump.j)).take count)) ∧
      after.Loaded file ∧ after.j = pump.j + count ∧ after.ofs = 0 := by
  intro count
  have position : offset + pump.j < 2 ^ 64 := by omega
  have block : (if pump.j + ((writeSize : Int) - pump.ofs) < actual then
      (writeSize : Int) - pump.ofs else (actual : Int) - pump.j) = count := by
    split <;> omega
  have pageEq := pageStart_eq (Nat.le_of_lt small) position
  have indexEq := pageIndex_eq k (offset + pump.j)
  have inPage := Nat.mod_lt (offset + pump.j) (Nat.two_pow_pos k)
  have below := Nat.mod_le (offset + pump.j) (2 ^ k)
  generalize (offset + pump.j) % 2 ^ k = index at pageEq indexEq inPage below
  obtain ⟨buffer, isLoaded, here⟩ : ∃ buffer,
      (if pump.bufIndex = some (pageStart (2 ^ k) (offset + pump.j)) then
        some (some pump.readFileBuffer)
      else loadPage readAt (pageStart (2 ^ k) (offset + pump.j)) pump.readFileBuffer) =
        some (some buffer) ∧ PageLoaded file (offset + pump.j - index) buffer := by
    rw [pageEq]
    split
    · next same => exact ⟨_, rfl, loaded _ same⟩
    · exact loadPage_spec reads _ _
  have inBlock : pump.ofs + count ≤ writeSize := by omega
  have inFile' : offset + pump.j + count ≤ file.length ∨ count = 0 := by omega
  have newJ : ((pump.j : Int) + (count : Int)).toNat = pump.j + count := by omega
  have newOfs : ((pump.ofs : Int) + (count : Int)).toNat = pump.ofs + count := by omega
  have back : offset + pump.j - index + index = offset + pump.j := Nat.sub_add_cancel below
  rw [pumpRound, block, isLoaded, Option.bind_some, indexEq, pageEq]
  dsimp only
  rw [newJ, newOfs]
  by_cases within : index + count < 2 ^ k
  · rw [if_pos (by exact_mod_cast within)]
    have slice := here.slice index count (by omega) (by omega)
    rw [back] at slice
    by_cases first : pump.ofs = 0
    · rw [if_pos first, first, Nat.zero_add, slice, List.take_zero, List.nil_append]
      refine ⟨_, rfl, ?_, rfl, rfl⟩
      rintro page same
      cases same
      exact here
    · rw [if_neg first]
      obtain ⟨after, copies, taken⟩ := memcpy_spec pump.wrbuffer buffer
        (show index + count ≤ 2 ^ k by omega) inBlock
      rw [copies, Option.map_some, taken, slice]
      refine ⟨_, rfl, ?_, rfl, rfl⟩
      rintro page same
      cases same
      exact here
  · rw [if_neg (by exact_mod_cast within)]
    have part :
        (count : Int) - (index + count - (2 ^ k : Nat)) = ((2 ^ k - index : Nat) : Int) := by
      omega
    have rest : (count : Int) - ((2 ^ k - index : Nat) : Int) =
        ((count - (2 ^ k - index) : Nat) : Int) := by omega
    rw [part, rest, Int.toNat_natCast]
    generalize isFirst : 2 ^ k - index = firstPart
    have slice := here.slice index firstPart (by omega) (by omega)
    rw [back] at slice
    obtain ⟨between, copies, taken⟩ := memcpy_spec pump.wrbuffer buffer
      (show index + firstPart ≤ 2 ^ k by omega) (show pump.ofs + firstPart ≤ writeSize by omega)
    obtain ⟨next, loads, there⟩ := loadPage_spec reads (offset + pump.j - index + 2 ^ k) buffer
    obtain ⟨after, copies', taken'⟩ := memcpy_spec between next
      (show 0 + (count - firstPart) ≤ 2 ^ k by omega)
      (show pump.ofs + firstPart + (count - firstPart) ≤ writeSize by omega)
    have slice' := there.slice 0 (count - firstPart) (by omega) (by omega)
    have nextPage : offset + pump.j - index + 2 ^ k + 0 = offset + pump.j + firstPart := by omega
    have whole : pump.ofs + firstPart + (count - firstPart) = pump.ofs + count := by omega
    have data : (file.drop (offset + pump.j)).take firstPart ++
        (file.drop (offset + pump.j + firstPart)).take (count - firstPart) =
          (file.drop (offset + pump.j)).take count := by
      have behind : file.drop (offset + pump.j + firstPart) =
          (file.drop (offset + pump.j)).drop firstPart := List.drop_drop.symm
      rw [behind, ← List.take_add, Nat.add_sub_cancel' (by omega)]
    rw [copies, Option.bind_some, loads, Option.bind_some]
    dsimp only
    rw [copies', Option.map_some, ← whole, taken', taken, slice, slice', nextPage,
      List.append_assoc, data]
    refine ⟨_, rfl, ?_, rfl, rfl⟩
    rintro page same
    cases same
    exact there

/-- The loop writes full blocks and a last one, unless it is cancelled on the way: then it has
written the first of them. -/
theorem pumpLoop_spec (small : k < 64)
    (reads : ∀ page, readAt page = some ((file.drop page).take (2 ^ k)))
    (fits : writeSize ≤ 2 ^ k) {offset actual : Nat}
    (inFile : offset + actual ≤ file.length ∨ actual = 0) (bounded : offset + actual < 2 ^ 64)
    (cancel : Nat → Bool) {rounds : Nat} (looks : Nat) {pump : Pump (2 ^ k) writeSize}
    (loaded : pump.Loaded file) (open' : pump.ofs < writeSize)
    (left : pump.j ≤ actual) (busy : pump.ofs = 0 → pump.j < actual)
    (enough : actual - pump.j < rounds) :
    ∃ front last written, pumpLoop readAt offset actual cancel rounds looks pump =
        some (written, false) ∧
      (∀ block ∈ front, block.length = writeSize) ∧ last ≠ [] ∧
      front.flatten ++ last = pump.wrbuffer.bytes.take pump.ofs ++
        (file.drop (offset + pump.j)).take (actual - pump.j) ∧
      ((∀ look, cancel look = false) → written = front ++ [last]) ∧
      ((∀ look, cancel look = true → cancel (look + 1) = true) → written <+: front ++ [last]) := by
  induction rounds generalizing looks pump with
  | zero => exact absurd enough (Nat.not_lt_zero _)
  | succ rounds ih =>
      obtain ⟨after, round, loaded', newJ, newOfs⟩ :=
        pumpRound_spec small reads fits inFile bounded loaded open' left
      have inBuffer : (pump.wrbuffer.bytes.take pump.ofs).length = pump.ofs := by
        rw [List.length_take, pump.wrbuffer.length_bytes]
        omega
      have inFile' : ∀ count, pump.j + count ≤ actual →
          ((file.drop (offset + pump.j)).take count).length = count := fun count le => by
        rw [List.length_take, List.length_drop]
        omega
      rw [pumpLoop, round, Option.bind_some]
      dsimp only
      by_cases goesOn : after.j < actual
      · have full : min (writeSize - pump.ofs) (actual - pump.j) = writeSize - pump.ofs := by omega
        rw [full] at newJ ⊢
        obtain ⟨front, last, written, runs, fronts, nonempty, flat, whole, begun⟩ :=
          ih (looks + 2) loaded' (by omega) (by omega) (fun _ => goesOn) (by omega)
        rw [newOfs, List.take_zero, List.nil_append] at flat
        refine ⟨(pump.wrbuffer.bytes.take pump.ofs ++
          (file.drop (offset + pump.j)).take (writeSize - pump.ofs)) :: front, last, ?_⟩
        have shape : ((pump.wrbuffer.bytes.take pump.ofs ++
              (file.drop (offset + pump.j)).take (writeSize - pump.ofs)) :: front).flatten ++ last =
            pump.wrbuffer.bytes.take pump.ofs ++
              (file.drop (offset + pump.j)).take (actual - pump.j) := by
          have behind : file.drop (offset + after.j) =
              (file.drop (offset + pump.j)).drop (writeSize - pump.ofs) := by
            rw [List.drop_drop, newJ, Nat.add_assoc]
          rw [List.flatten_cons, List.append_assoc, flat, behind, List.append_assoc, newJ,
            ← List.take_add]
          congr 2
          omega
        have fronts' : ∀ block ∈ (pump.wrbuffer.bytes.take pump.ofs ++
            (file.drop (offset + pump.j)).take (writeSize - pump.ofs)) :: front,
            block.length = writeSize := by
          refine List.forall_mem_cons.mpr ⟨?_, fronts⟩
          rw [List.length_append, inBuffer, inFile' _ (by omega)]
          omega
        cases stops : cancel (looks + 1) with
        | true =>
            rw [if_neg (by simp)]
            refine ⟨_, rfl, fronts', nonempty, shape, fun never => ?_, fun _ => ?_⟩
            · rw [never] at stops
              cases stops
            · cases cancel looks with
              | true => exact List.nil_prefix
              | false => exact ⟨front ++ [last], rfl⟩
        | false =>
            rw [if_pos ⟨by exact_mod_cast goesOn, rfl⟩, runs]
            refine ⟨_, rfl, fronts', nonempty, shape, fun never => ?_, fun stays => ?_⟩
            · rw [never, whole never]
              rfl
            · have early : cancel looks = false := by
                cases was : cancel looks with
                | false => rfl
                | true =>
                    rw [stays looks was] at stops
                    cases stops
              rw [early]
              exact List.prefix_cons_inj _ |>.mpr (begun stays)
      · have last : min (writeSize - pump.ofs) (actual - pump.j) = actual - pump.j := by omega
        rw [last] at newJ ⊢
        rw [if_neg fun both => goesOn (by exact_mod_cast both.1)]
        refine ⟨[], pump.wrbuffer.bytes.take pump.ofs ++
          (file.drop (offset + pump.j)).take (actual - pump.j), _, rfl, by simp, ?_, rfl,
          fun never => ?_, fun _ => ?_⟩
        · refine List.ne_nil_of_length_pos ?_
          rw [List.length_append, inBuffer, inFile' _ (by omega)]
          omega
        · rw [never]
          rfl
        · cases cancel looks with
          | true => exact List.nil_prefix
          | false => exact List.prefix_rfl

end Round

/-! ## The container -/

/-- The container that has a part of a file. -/
def dataContainer (txId code : Nat) (data : List UInt8) : List UInt8 :=
  (PacketHeader.mk (containerLength (headerSize + data.length)) containerTypeData code
    txId).bytes ++ data

/-- The part of a file that is asked for. -/
def filePart (file : List UInt8) (offset maxsize : Nat) : List UInt8 :=
  (file.drop offset).take maxsize

/-- The size announced is that of the part of the file. -/
theorem actualSize_eq (file : List UInt8) (offset maxsize : Nat) :
    actualSize file.length offset maxsize = (filePart file offset maxsize).length := by
  rw [actualSize, filePart, List.length_take, List.length_drop]
  split
  · omega
  · split <;> omega

/-- A data container has its header and its data. -/
@[simp] theorem length_dataContainer (txId code : Nat) (data : List UInt8) :
    (dataContainer txId code data).length = headerSize + data.length := by
  rw [dataContainer, List.length_append, PacketHeader.length_bytes]

section Sending

variable {k maxPacketSize : Nat} (small : k < 64) (fits : writeSize ≤ 2 ^ k)
  (room : headerSize < writeSize) {file : List UInt8} {readAt : Nat → Option (List UInt8)}
  (reads : ∀ page, readAt page = some ((file.drop page).take (2 ^ k))) {offset : Nat}
  (maxsize : Nat) (bounded : offset + file.length < 2 ^ 64) (cancel : Nat → Bool)
  (readFileBuffer : Buffer (2 ^ k)) {wrbuffer : Buffer writeSize} {txId code : Nat}
  (isHeader : wrbuffer.bytes.take headerSize =
    (PacketHeader.mk headerSize containerTypeData code txId).bytes)

include small fits room reads bounded isHeader in
/-- What is written are full blocks and a last one of the container, or the first of them. -/
theorem sendFileData_blocks (maxPacketSize : Nat) :
    ∃ full last written, (∀ block ∈ full, block.length = writeSize) ∧ last ≠ [] ∧
      full.flatten ++ last = dataContainer txId code (filePart file offset maxsize) ∧
      ((∀ look, cancel look = false) → written = full ++ [last]) ∧
      ((∀ look, cancel look = true → cancel (look + 1) = true) → written <+: full ++ [last]) ∧
      ∀ cancelled, sendFileData readAt maxPacketSize file.length offset maxsize cancel cancelled
          readFileBuffer wrbuffer = some (if cancelled then (-2, written)
        else (((filePart file offset maxsize).length : Int), written ++ zeroLengthPacket
          maxPacketSize ((headerSize + (filePart file offset maxsize).length) % 2 ^ 32))) := by
  have size := actualSize_eq file offset maxsize
  have isPart : (file.drop offset).take (filePart file offset maxsize).length =
      filePart file offset maxsize :=
    (List.prefix_iff_eq_take.mp (List.take_prefix ..)).symm
  have length : (filePart file offset maxsize).length = min maxsize (file.length - offset) := by
    rw [filePart, List.length_take, List.length_drop]
  generalize filePart file offset maxsize = part at size isPart length ⊢
  have header : headerSize = 12 := rfl
  have total : ((headerSize : Int) + part.length).toNat = headerSize + part.length := by omega
  have inFile : offset + part.length ≤ file.length ∨ part.length = 0 := by omega
  have inRange : offset + part.length < 2 ^ 64 := by omega
  obtain ⟨filled, pokes, overwrites⟩ :=
    poke32_of_fits (containerLength (headerSize + part.length)) 0
    (show ((0 : Nat) + 4 : Int) < writeSize by omega) (Int.le_refl _) wrbuffer
  have front := take_of_overwritten isHeader overwrites
  have enough : part.length - (⟨filled, readFileBuffer, none, 0, headerSize⟩ :
      Pump (2 ^ k) writeSize).j < part.length + 1 := Nat.lt_succ_of_le (Nat.sub_le ..)
  obtain ⟨full, last, written, runs, fulls, nonempty, flat, never, early⟩ :=
    pumpLoop_spec small reads fits inFile inRange cancel 0 (by rintro _ ⟨⟩) room
      (Nat.zero_le _) (by rintro ⟨⟩) enough
  refine ⟨full, last, written, fulls, nonempty, ?_, never, early, fun cancelled => ?_⟩
  · rw [flat, front, Nat.add_zero, Nat.sub_zero, isPart, dataContainer]
  · rw [sendFileData, size, total]
    dsimp only
    rw [← Int.natCast_zero, pokes, Option.bind_some, Int.toNat_natCast, runs]
    cases cancelled <;> rfl

include small fits room reads bounded isHeader in
/-- `send_file_data` puts one container with the part of the file on the pipe, if its size is not
lost in the `int` of `check_and_send_USB_ZLP`. The ends of the pages make no difference. -/
theorem sendFileData_spec (positive : 0 < maxPacketSize) (cut : maxPacketSize ∣ writeSize)
    (whole : maxPacketSize ∣ 2 ^ 32) (never : ∀ look, cancel look = false) :
    ∃ written, sendFileData readAt maxPacketSize file.length offset maxsize cancel false
        readFileBuffer wrbuffer = some (((filePart file offset maxsize).length : Int), written) ∧
      (Bulk.sent maxPacketSize written = Bulk.container maxPacketSize
          (dataContainer txId code (filePart file offset maxsize)) ↔
        ¬ 2 ^ 32 ∣ headerSize + (filePart file offset maxsize).length) := by
  obtain ⟨full, last, written, fulls, nonempty, shape, all, -, sends⟩ :=
    sendFileData_blocks small fits room reads maxsize bounded cancel readFileBuffer isHeader
      maxPacketSize
  obtain rfl := all never
  refine ⟨_, sends false, ?_⟩
  have fill : ∀ block ∈ full, block ≠ [] ∧ maxPacketSize ∣ block.length := fun block member => by
    rw [fulls block member]
    exact ⟨List.ne_nil_of_length_pos (by rw [fulls block member]; omega), cut⟩
  have length : full.flatten.length + last.length =
      headerSize + (filePart file offset maxsize).length := by
    rw [← List.length_append, shape, length_dataContainer]
  have fronts : maxPacketSize ∣ full.flatten.length := by
    rw [List.length_flatten]
    exact List.dvd_sum fun count member => by
      obtain ⟨block, here, rfl⟩ := List.mem_map.mp member
      exact (fill block here).2
  generalize headerSize + (filePart file offset maxsize).length = total at length ⊢
  have ends : maxPacketSize ∣ total ↔ maxPacketSize ∣ last.length := by
    rw [← length]
    exact Nat.dvd_add_right fronts
  have rest := Nat.dvd_mod_iff (m := total) whole
  rw [← shape, List.append_assoc, List.singleton_append, zeroLengthPacket]
  by_cases filled : maxPacketSize ∣ last.length
  · have counted := rest.mpr (ends.mpr filled)
    by_cases lost : 2 ^ 32 ∣ total
    · have zero := Nat.mod_eq_zero_of_dvd lost
      rw [zero, if_neg fun both => absurd both.1 (by omega)]
      refine iff_of_false (fun same => ?_) (fun kept => kept lost)
      refine Bulk.sent_ne_container positive (List.forall_mem_append.mpr
        ⟨fill, List.forall_mem_singleton.mpr ⟨nonempty, filled⟩⟩) ?_
      rw [same, List.flatten_append, List.flatten_singleton]
    · have counts : 0 < total % 2 ^ 32 := Nat.pos_of_ne_zero fun zero =>
        lost (Nat.dvd_of_mod_eq_zero zero)
      rw [if_pos ⟨Nat.le_of_dvd counts counted, Nat.mod_eq_zero_of_dvd counted⟩]
      have sent := Bulk.sent_container positive fill nonempty
      rw [if_pos filled] at sent
      exact iff_of_true sent lost
  · have open' : ¬ maxPacketSize ∣ total % 2 ^ 32 :=
      fun counted => filled (ends.mp (rest.mp counted))
    have kept : ¬ 2 ^ 32 ∣ total := fun lost => filled (ends.mp (whole.trans lost))
    rw [if_neg fun both => open' (Nat.dvd_of_mod_eq_zero both.2)]
    have sent := Bulk.sent_container positive fill nonempty
    rw [if_neg filled] at sent
    exact iff_of_true sent kept

end Sending

end Nookobo.Mtp
