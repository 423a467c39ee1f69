import Nookobo.Mtp.Model
import Nookobo.Mtp.Strings

/-!
# The ObjectInfo dataset

`build_objectinfo_dataset` tells the host about an object, and
`parse_incoming_dataset` reads the same dataset when the host sends an object.
The main result composes the two: a host that sends back what it was told names
the object as the device does, up to the characters an MTP string cannot carry.
-/

namespace Nookobo.Mtp

open Nookobo.Text

variable {size : Nat}

/-! ## Chains of writers -/

/-- One call of a writer. -/
inductive Field where
  | u08 (data : Nat)
  | u16 (data : Nat)
  | u32 (data : Nat)
  | string (str : List UInt8)

/-- What `poke32` and its siblings and `poke_string` do for a field. -/
def Field.poke (field : Field) (index maxsize : Int) (buffer : Buffer size) :
    Option (Int × Buffer size) :=
  match field with
  | .u08 data => poke08 index maxsize data buffer
  | .u16 data => poke16 index maxsize data buffer
  | .u32 data => poke32 index maxsize data buffer
  | .string str => pokeString index maxsize str buffer

/-- `ofs = poke..(buffer, ofs, maxsize, ..)`, once for each field. -/
def pokeFields (maxsize : Int) : List Field → Int → Buffer size → Option (Int × Buffer size)
  | [], ofs, buffer => some (ofs, buffer)
  | field :: rest, ofs, buffer =>
      (field.poke ofs maxsize buffer).bind fun (ofs, buffer) => pokeFields maxsize rest ofs buffer

/-- What the writer writes. -/
def Field.bytes : Field → List UInt8
  | .u08 data => littleEndian 1 data
  | .u16 data => littleEndian 2 data
  | .u32 data => littleEndian 4 data
  | .string str => stringField str

/-! ## The dataset -/

/-- What `stat64` says about a file: its size, and its time as `snprintf` writes it. -/
structure EntryStat where
  stSize : Nat
  timestr : List UInt8

/-- The fields in front of the name. -/
def objectInfoHead (entry : FsEntry) (stat : EntryStat) : List Field :=
  [.u32 entry.storageId,
    .u16 (if entry.isDir then formatAssociation else formatUndefined),
    .u16 0,
    .u32 (if 0x100000000 ≤ stat.stSize then 0xFFFFFFFF else stat.stSize),
    .u16 0, .u32 0, .u32 0, .u32 0, .u32 0, .u32 0, .u32 0,
    .u32 entry.parent,
    .u16 (if entry.isDir then associationTypeGenericFolder else 0),
    .u32 0, .u32 0]

/-- All fields of the dataset. -/
def objectInfoFields (entry : FsEntry) (stat : EntryStat) : List Field :=
  objectInfoHead entry stat ++
    [.string entry.name, .string stat.timestr, .string stat.timestr, .u08 0]

/-- `build_objectinfo_dataset`; there is no `entrystat` when the path cannot be built or its
`stat64` fails. -/
def buildObjectInfoDataset (maxsize : Int) (entry : FsEntry) (entrystat : Option EntryStat)
    (buffer : Buffer size) : Option (Int × Buffer size) :=
  match entrystat with
  | none => some (0, buffer)
  | some stat => pokeFields maxsize (objectInfoFields entry stat) 0 buffer

/-- The size of the header of a container. -/
def headerSize : Nat := 12

/-- `peek` of `count` units. -/
def peekUnits (datain : Buffer size) : Nat → Nat → Option (List Nat)
  | _, 0 => some []
  | index, count + 1 =>
      (peek datain index 2).bind fun unit =>
        (peekUnits datain (index + 2) count).map fun units => unit :: units

/-- What `parse_incoming_dataset` reads of an ObjectInfo dataset. -/
structure IncomingInfo where
  objectformat : Nat
  objectsize : Nat
  tmpStr : List UInt8
deriving DecidableEq

/-- The reading of `parse_incoming_dataset`, the same for a folder and a file. The array of
units is cleared first, so a NUL follows them. -/
def readObjectInfo (datain : Buffer size) : Option IncomingInfo :=
  (peek datain (headerSize + 0x04) 2).bind fun objectformat =>
    (peek datain (headerSize + 0x08) 4).bind fun objectsize =>
      (peek datain (headerSize + 0x34) 1).bind fun stringLen =>
        (peekUnits datain (headerSize + 0x35) stringLen).map fun units =>
          ⟨objectformat, objectsize, (unicode2charstring (units ++ [0]) (256 + 1)).2⟩

/-! ## Writing -/

/-- A field is written where it fits, and refused where it does not. -/
theorem Field.poke_spec {maxsize : Int} (inside : maxsize ≤ size) (field : Field) (offset : Nat)
    (buffer : Buffer size) :
    ∃ after,
      if (offset + field.bytes.length : Int) < maxsize then
        field.poke offset maxsize buffer = some (↑(offset + field.bytes.length), after) ∧
          Written buffer offset field.bytes after
      else
        field.poke offset maxsize buffer = some (-1, after) ∧
          after.bytes.take offset = buffer.bytes.take offset := by
  have number : ∀ bytes : List UInt8, ∃ after,
      if (offset + bytes.length : Int) < maxsize then
        Nookobo.Mtp.poke bytes offset maxsize buffer = some (↑(offset + bytes.length), after) ∧
          Written buffer offset bytes after
      else
        Nookobo.Mtp.poke bytes offset maxsize buffer = some (-1, after) ∧
          after.bytes.take offset = buffer.bytes.take offset := by
    intro bytes
    split
    · next fits => exact poke_of_fits fits inside buffer
    · next beyond => exact ⟨buffer, poke_of_not_fits (not_lt.mp beyond) buffer, rfl⟩
  cases field with
  | u08 data => exact number (littleEndian 1 data)
  | u16 data => exact number (littleEndian 2 data)
  | u32 data => exact number (littleEndian 4 data)
  | string str => exact pokeString_spec inside str offset buffer

/-- After a failure nothing more is written. -/
theorem Field.poke_of_neg (field : Field) {index maxsize : Int} (failed : index < 0)
    (buffer : Buffer size) : field.poke index maxsize buffer = some (index, buffer) := by
  cases field <;> exact if_pos failed

/-- After a failure no field is written. -/
theorem pokeFields_of_neg (fields : List Field) {index maxsize : Int} (failed : index < 0)
    (buffer : Buffer size) : pokeFields maxsize fields index buffer = some (index, buffer) := by
  induction fields with
  | nil => rfl
  | cons field rest ih =>
      rw [pokeFields, field.poke_of_neg failed, Option.bind_some]
      exact ih

/-- A chain of writers writes all its fields when they end before `maxsize`. Otherwise its last
index is -1, and the bytes in front are as they were. It never leaves the array. -/
theorem pokeFields_spec {maxsize : Int} (inside : maxsize ≤ size) (fields : List Field)
    (offset : Nat) (room : offset < maxsize) (buffer : Buffer size) :
    ∃ after,
      if (offset + (fields.flatMap Field.bytes).length : Int) < maxsize then
        pokeFields maxsize fields offset buffer =
            some (↑(offset + (fields.flatMap Field.bytes).length), after) ∧
          Written buffer offset (fields.flatMap Field.bytes) after
      else
        pokeFields maxsize fields offset buffer = some (-1, after) ∧
          after.bytes.take offset = buffer.bytes.take offset := by
  induction fields generalizing offset buffer with
  | nil =>
      refine ⟨buffer, ?_⟩
      rw [if_pos (by simpa using room)]
      exact ⟨rfl, Written.nil buffer offset⟩
  | cons field rest ih =>
      rw [List.flatMap_cons, List.length_append]
      obtain ⟨between, spec⟩ := field.poke_spec inside offset buffer
      split at spec
      · next fits =>
        obtain ⟨after, later⟩ := ih (offset + field.bytes.length) (by omega) between
        refine ⟨after, ?_⟩
        rw [pokeFields, spec.1, Option.bind_some]
        dsimp only
        split at later
        · next fits' =>
          rw [if_pos (by omega), later.1]
          exact ⟨by rw [Nat.add_assoc], spec.2.trans (by omega) later.2⟩
        · next beyond =>
          rw [if_neg (by omega), later.1]
          refine ⟨rfl, ?_⟩
          have taken := congrArg (List.take offset) later.2
          rw [List.take_take, List.take_take, Nat.min_eq_left (Nat.le_add_right _ _)] at taken
          exact taken.trans (spec.2.take_le le_rfl (by omega))
      · next beyond =>
        refine ⟨between, ?_⟩
        rw [if_neg (by omega), pokeFields, spec.1, Option.bind_some]
        exact ⟨pokeFields_of_neg rest (by decide) between, spec.2⟩

/-! ## Reading -/

/-- The units of a text are read back. -/
theorem peekUnits_littleEndian {datain : Buffer size} {index : Nat} (front back : List UInt8)
    {units : List Nat} (small : ∀ unit ∈ units, unit < 0x10000) (position : front.length = index)
    (shape : datain.bytes = front ++ units.flatMap (littleEndian 2) ++ back) :
    peekUnits datain index units.length = some units := by
  induction units generalizing front index with
  | nil => rfl
  | cons unit rest ih =>
      obtain ⟨unitSmall, restSmall⟩ := List.forall_mem_cons.mp small
      rw [List.flatMap_cons] at shape
      have here : datain.bytes =
          front ++ littleEndian 2 unit ++ (rest.flatMap (littleEndian 2) ++ back) := by
        rw [shape]
        simp only [List.append_assoc]
      have later := ih (front ++ littleEndian 2 unit) restSmall
        (by rw [List.length_append, length_littleEndian, position])
        (by rw [here]; simp only [List.append_assoc])
      rw [List.length_cons, peekUnits, peek_littleEndian front _ 2 unit position here,
        Option.bind_some, later, Nat.mod_eq_of_lt (by omega)]
      rfl

/-- The bytes of the dataset. -/
def objectInfoBytes (entry : FsEntry) (stat : EntryStat) : List UInt8 :=
  (objectInfoFields entry stat).flatMap Field.bytes

/-- `build_objectinfo_dataset` writes the dataset when it ends before `maxsize`, and fails
otherwise. -/
theorem buildObjectInfoDataset_spec {maxsize : Int} (inside : maxsize ≤ size)
    (roomy : 0 < maxsize) (entry : FsEntry) (stat : EntryStat) (buffer : Buffer size) :
    ∃ after,
      if ((objectInfoBytes entry stat).length : Int) < maxsize then
        buildObjectInfoDataset maxsize entry (some stat) buffer =
            some (↑(objectInfoBytes entry stat).length, after) ∧
          after.bytes.take (objectInfoBytes entry stat).length = objectInfoBytes entry stat
      else buildObjectInfoDataset maxsize entry (some stat) buffer = some (-1, after) := by
  obtain ⟨after, spec⟩ := pokeFields_spec inside (objectInfoFields entry stat) 0 roomy buffer
  refine ⟨after, ?_⟩
  rw [Nat.zero_add] at spec
  simp only [Int.natCast_zero, Int.zero_add] at spec
  have all : (objectInfoFields entry stat).flatMap Field.bytes = objectInfoBytes entry stat := rfl
  rw [all] at spec
  split at spec
  · next fits =>
    rw [if_pos fits]
    refine ⟨spec.1, ?_⟩
    have taken := spec.2.take (by omega)
    rwa [Nat.zero_add, List.take_zero, List.nil_append] at taken
  · next beyond =>
    rw [if_neg beyond]
    exact spec.1

/-- The format and the size in the dataset. -/
def objectFormat (entry : FsEntry) : Nat :=
  if entry.isDir then formatAssociation else formatUndefined

/-- The size as the dataset has it, with 32 bits of all ones for a large file. -/
def compressedSize (stat : EntryStat) : Nat :=
  if 0x100000000 ≤ stat.stSize then 0xFFFFFFFF else stat.stSize

/-- The dataset with its name among the other fields. -/
theorem objectInfoBytes_shape (entry : FsEntry) (stat : EntryStat) :
    ∃ middle tail : List UInt8, middle.length = 40 ∧
      objectInfoBytes entry stat =
        littleEndian 4 entry.storageId ++ littleEndian 2 (objectFormat entry) ++
          littleEndian 2 0 ++ littleEndian 4 (compressedSize stat) ++ middle ++
          stringField entry.name ++ tail := by
  refine ⟨((objectInfoHead entry stat).drop 4).flatMap Field.bytes,
    [.string stat.timestr, .string stat.timestr, .u08 0].flatMap Field.bytes, ?_, ?_⟩
  · simp [objectInfoHead, Field.bytes]
  · simp [objectInfoBytes, objectInfoFields, objectInfoHead, Field.bytes, objectFormat,
      compressedSize]

/-- The dataset is read as it was written, behind any header. -/
theorem readObjectInfo_built {entry : FsEntry} {text : List Char} (stat : EntryStat)
    (named : entry.name = encoded text) (nulFree : ∀ char ∈ text, char.toNat ≠ 0)
    (fits : (encoded text).length ≤ 256) {datain : Buffer size} {header rest : List UInt8}
    (lengthHeader : header.length = headerSize)
    (shape : datain.bytes = header ++ objectInfoBytes entry stat ++ rest) :
    readObjectInfo datain =
      some ⟨objectFormat entry, compressedSize stat, encoded (shown text)⟩ := by
  obtain ⟨middle, tail, lengthMiddle, bytes⟩ := objectInfoBytes_shape entry stat
  rw [bytes] at shape
  have format : peek datain (headerSize + 0x04) 2 = some (objectFormat entry) := by
    rw [peek_littleEndian (header ++ littleEndian 4 entry.storageId)
      (littleEndian 2 0 ++ littleEndian 4 (compressedSize stat) ++ middle ++
        stringField entry.name ++ tail ++ rest) 2 (objectFormat entry)
      (by simp [lengthHeader]) (by rw [shape]; simp only [List.append_assoc])]
    rw [objectFormat]
    split <;> rfl
  have length : peek datain (headerSize + 0x08) 4 = some (compressedSize stat) := by
    rw [peek_littleEndian (header ++ littleEndian 4 entry.storageId ++
        littleEndian 2 (objectFormat entry) ++ littleEndian 2 0)
      (middle ++ stringField entry.name ++ tail ++ rest) 4 (compressedSize stat)
      (by simp [lengthHeader]) (by rw [shape]; simp only [List.append_assoc])]
    rw [compressedSize, Nat.mod_eq_of_lt (by split <;> omega)]
  have front : ∃ before : List UInt8, before.length = headerSize + 0x34 ∧
      datain.bytes = before ++ stringField entry.name ++ (tail ++ rest) := by
    refine ⟨header ++ littleEndian 4 entry.storageId ++ littleEndian 2 (objectFormat entry) ++
      littleEndian 2 0 ++ littleEndian 4 (compressedSize stat) ++ middle, ?_, ?_⟩
    · simp [lengthHeader, lengthMiddle]
    · rw [shape]
      simp only [List.append_assoc]
  obtain ⟨before, lengthBefore, shape⟩ := front
  rw [readObjectInfo, format, Option.bind_some, length, Option.bind_some]
  by_cases empty : text = []
  · subst empty
    have unnamed : entry.name = [] := named
    rw [unnamed] at shape
    have none : peek datain (headerSize + 0x34) 1 = some 0 :=
      peek_littleEndian before (tail ++ rest) 1 0 lengthBefore shape
    rw [none]
    rfl
  · have nonempty : entry.name ≠ [] := by
      obtain ⟨char, others, rfl⟩ := List.exists_cons_of_ne_nil empty
      rw [named, encoded_cons]
      exact fun nil => String.utf8EncodeChar_ne_nil (List.append_eq_nil_iff.mp nil).1
    have units := unitsOf_encoded nulFree
    rw [← named] at units
    have few := length_unitsOf_le entry.name
    rw [stringField, if_neg nonempty] at shape
    have count : peek datain (headerSize + 0x34) 1 = some (unitsOf entry.name).length := by
      rw [peek_littleEndian before ((unitsOf entry.name).flatMap (littleEndian 2) ++ (tail ++ rest))
        1 (unitsOf entry.name).length lengthBefore (by rw [shape]; simp [littleEndian]),
        Nat.mod_eq_of_lt (by omega)]
    have read : peekUnits datain (headerSize + 0x35) (unitsOf entry.name).length =
        some (unitsOf entry.name) := by
      refine peekUnits_littleEndian (before ++ [UInt8.ofNat (unitsOf entry.name).length])
        (tail ++ rest) ?_ (by rw [List.length_append, lengthBefore]; rfl)
        (by rw [shape]; simp only [List.append_assoc, List.cons_append, List.nil_append])
      rw [units]
      intro unit member
      rcases List.mem_append.mp member with isChar | isNul
      · obtain ⟨char, shows, rfl⟩ := List.mem_map.mp isChar
        exact basic_of_mem_shown shows
      · rw [List.mem_singleton.mp isNul]
        decide
    have shownFree : ∀ char ∈ shown text, char.toNat ≠ 0 :=
      fun char member => nulFree char ((shown_begins text).sublist.mem member)
    have shorter := length_encoded_shown_le text
    rw [count, Option.bind_some, read, units, Option.map_some, List.append_assoc,
      List.singleton_append, unicode2charstring,
      unicode2charLoop_text shownFree [] [0] (by rw [List.length_nil]; omega)]
    rfl

/-- What an object is named when the host sends back the dataset it was sent: nothing is lost
exactly when the name is safe, within the basic plane and of at most 254 characters. -/
theorem objectInfo_roundtrip {entry : FsEntry} {text : List Char} (stat : EntryStat)
    (named : entry.name = encoded text) (nulFree : ∀ char ∈ text, char.toNat ≠ 0)
    (fits : (encoded text).length ≤ 256) {maxsize : Int} (inside : maxsize ≤ size)
    (room : ((objectInfoBytes entry stat).length : Int) < maxsize) (buffer : Buffer size) :
    ∃ (ofs : Nat) (after : Buffer size),
      buildObjectInfoDataset maxsize entry (some stat) buffer = some (↑ofs, after) ∧
      ∀ {size' : Nat} (datain : Buffer size') (header rest : List UInt8),
        header.length = headerSize →
        datain.bytes = header ++ after.bytes.take ofs ++ rest →
        readObjectInfo datain =
          some ⟨objectFormat entry, compressedSize stat, encoded (shown text)⟩ ∧
        (sanitizeName (encoded (shown text)) (256 + 1) = (1, entry.name) ↔
          SafeName entry.name ∧ (∀ char ∈ text, isBasic char = true) ∧ text.length ≤ 254) := by
  obtain ⟨after, spec⟩ := buildObjectInfoDataset_spec inside (by omega) entry stat buffer
  rw [if_pos room] at spec
  refine ⟨_, after, spec.1, fun datain header rest lengthHeader shape => ?_⟩
  rw [spec.2] at shape
  refine ⟨readObjectInfo_built stat named nulFree fits lengthHeader shape, ?_⟩
  rw [named]
  constructor
  · intro accepted
    obtain ⟨-, -, -, same, nonempty⟩ := sanitizeName_eq_one_iff.mp accepted
    have shorter := length_cleaned_le (encoded (shown text))
    rw [← same] at shorter
    have whole := shown_eq_self_of_length shorter
    rw [whole] at accepted
    exact ⟨(sanitizeName_eq_self_iff.mp accepted).1, shown_eq_self_iff.mp whole⟩
  · rintro ⟨safe, basic⟩
    rw [shown_eq_self_iff.mpr basic]
    exact sanitizeName_eq_self_iff.mpr ⟨safe, fun _ => by omega⟩

/-- A file with an accented name. -/
def bookEntry : FsEntry := ⟨5, 0, 0xFFFF0001, encoded ['b', 'é'], false, false, 0, -1⟩

/-- What `stat` says of the book. -/
def bookStat : EntryStat := ⟨7, ascii "20240102T101112"⟩

/-- A book with an accent in its name is announced as it is. -/
theorem objectInfo_roundtrip_book :
    ∃ (ofs : Nat) (after : Buffer 512),
      buildObjectInfoDataset 512 bookEntry (some bookStat) (Buffer.zeros 512) =
        some (↑ofs, after) ∧
      readObjectInfo (terminated (List.replicate 12 0 ++ after.bytes.take ofs)) =
        some ⟨0x3000, 7, encoded ['b', 'é']⟩ := by
  obtain ⟨ofs, after, builds, reads⟩ := objectInfo_roundtrip bookStat
    (rfl : bookEntry.name = encoded ['b', 'é'])
    (List.forall_mem_cons.mpr ⟨by decide, List.forall_mem_singleton.mpr (by decide)⟩) (by decide)
    (le_refl 512) (by decide +kernel) (Buffer.zeros 512)
  exact ⟨ofs, after, builds, (reads _ (List.replicate 12 0) [0] rfl rfl).1⟩

end Nookobo.Mtp
