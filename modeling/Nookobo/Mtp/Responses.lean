import Nookobo.Mtp.ObjectInfo

/-!
# Responses and the headers of containers

The response codes of the operations, and `build_response`, which writes a
header and the data behind it.
-/

namespace Nookobo.Mtp

open Nookobo.Text

/-- The response codes that the operations return. `noResponse` keeps `process_in_packet` from
sending one. -/
inductive Response where
  | ok
  | generalError
  | sessionNotOpen
  | incompleteTransfer
  | invalidStorageId
  | invalidObjectHandle
  | objectWriteProtected
  | storeReadOnly
  | accessDenied
  | storeNotAvailable
  | invalidObjectPropCode
  | invalidDataset
  | noResponse
deriving DecidableEq, Repr

/-- The code of a response. -/
def Response.code : Response → Nat
  | .ok => 0x2001
  | .generalError => 0x2002
  | .sessionNotOpen => 0x2003
  | .incompleteTransfer => 0x2007
  | .invalidStorageId => 0x2008
  | .invalidObjectHandle => 0x2009
  | .objectWriteProtected => 0x200D
  | .storeReadOnly => 0x200E
  | .accessDenied => 0x200F
  | .storeNotAvailable => 0x2013
  | .invalidObjectPropCode => 0xA801
  | .invalidDataset => 0xA806
  | .noResponse => 0xFFFF

/-- `MTP_CONTAINER_TYPE_DATA`. -/
def containerTypeData : Nat := 2

/-- `MTP_PACKET_HEADER` -/
structure PacketHeader where
  length : Nat
  operation : Nat
  code : Nat
  txId : Nat

/-- The bytes of a header. -/
def PacketHeader.bytes (header : PacketHeader) : List UInt8 :=
  littleEndian 4 header.length ++ littleEndian 2 header.operation ++
    littleEndian 2 header.code ++ littleEndian 4 header.txId

variable {size : Nat}

/-- `build_response` -/
def buildResponse (txId type status : Nat) (maxsize : Int) (datain : List UInt8)
    (buffer : Buffer size) : Option (Int × Buffer size) :=
  let tmpHdr : PacketHeader := ⟨headerSize + datain.length, type, status, txId⟩
  (pokeArray 0 maxsize 1 tmpHdr.bytes false buffer).bind fun (ofs, buffer) =>
    if datain.length ≠ 0 then pokeArray ofs maxsize 1 datain false buffer else some (ofs, buffer)

/-- Every header has its 12 bytes. -/
@[simp] theorem PacketHeader.length_bytes (header : PacketHeader) :
    header.bytes.length = headerSize := by
  simp [PacketHeader.bytes, headerSize]

/-- A response without parameters is its header. -/
theorem buildResponse_header (txId type status : Nat) {maxsize : Int} (inside : maxsize ≤ size)
    (fits : headerSize < maxsize) (buffer : Buffer size) :
    ∃ after : Buffer size,
      buildResponse txId type status maxsize [] buffer = some ((headerSize : Int), after) ∧
      after.bytes.take headerSize = (PacketHeader.mk headerSize type status txId).bytes := by
  have room : ((0 : Nat) + (PacketHeader.mk headerSize type status txId).bytes.length : Int) <
      maxsize := by
    rw [PacketHeader.length_bytes]
    omega
  obtain ⟨after, pokes, written⟩ := poke_of_fits room inside buffer
  refine ⟨after, ?_, ?_⟩
  · change (poke ([] ++ (PacketHeader.mk headerSize type status txId).bytes) (0 : Nat) maxsize
      buffer).bind _ = _
    rw [List.nil_append, pokes, Option.bind_some]
    simp
  · have taken := written.take (by omega)
    rw [PacketHeader.length_bytes] at taken
    simpa using taken

/-- The length of a container is written over when it is known. -/
theorem take_of_overwritten {buffer after : Buffer size} {length operation code txId : Nat}
    (header : buffer.bytes.take headerSize = (PacketHeader.mk length operation code txId).bytes)
    {total : Nat} (written : Written buffer 0 (littleEndian 4 total) after) :
    after.bytes.take headerSize = (PacketHeader.mk total operation code txId).bytes := by
  have behind : (buffer.bytes.drop 4).take 8 =
      littleEndian 2 operation ++ littleEndian 2 code ++ littleEndian 4 txId := by
    have taken : (buffer.bytes.take headerSize).drop 4 = (buffer.bytes.drop 4).take 8 :=
      List.drop_take ..
    rw [← taken, header, PacketHeader.bytes]
    simp only [List.append_assoc]
    exact List.drop_left' (length_littleEndian 4 length)
  rw [written, List.take_zero, List.nil_append, List.take_append, length_littleEndian,
    List.take_of_length_le (by rw [length_littleEndian]; decide)]
  change _ ++ (buffer.bytes.drop (0 + 4)).take 8 = _
  rw [Nat.zero_add, behind]
  simp only [PacketHeader.bytes, List.append_assoc]

end Nookobo.Mtp
