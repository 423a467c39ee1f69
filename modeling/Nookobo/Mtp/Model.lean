import Mathlib.Data.List.Basic

/-!
# Objects of the MTP responder

The entry that the responder keeps for a file or a folder it has told the host
about, what the file system says about a file, and the codes of the protocol
that the modelled functions use. Handles are 32-bit numbers.
-/

namespace Nookobo.Mtp

/-- `filefoundinfo` -/
structure FileFoundInfo where
  isDirectory : Bool
  filename : List UInt8
  size : Int
deriving DecidableEq, Repr

/-- `fs_entry`, without the links: `isDir` and `isDeleted` are its `flags`, and
`watchDescriptor` is -1 where nothing is watched. -/
structure FsEntry where
  handle : Nat
  parent : Nat
  storageId : Nat
  name : List UInt8
  isDir : Bool
  isDeleted : Bool
  size : Int
  watchDescriptor : Int
deriving DecidableEq, Repr

/-- 0xFFFFFFFF: no handle, every storage, or the flags of no storage. -/
def allOnes : Nat := 0xFFFFFFFF

/-- `MTP_FORMAT_UNDEFINED`. -/
def formatUndefined : Nat := 0x3000

/-- `MTP_FORMAT_ASSOCIATION`. -/
def formatAssociation : Nat := 0x3001

/-- `MTP_ASSOCIATION_TYPE_GENERIC_FOLDER`. -/
def associationTypeGenericFolder : Nat := 0x0001

end Nookobo.Mtp
