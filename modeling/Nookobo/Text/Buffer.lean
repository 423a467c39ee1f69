import Mathlib.Data.List.TakeWhile
import Nookobo.Text.CString

/-!
# Arrays of bytes

A `Buffer size` is an array of `size` bytes. A load or a store outside it has no result, so a
computation on buffers that has one has kept to them: it is the model of C in which an access
out of bounds stops the program.

`Holds` says which string an array holds. Every function of the C library that is used on an array
writes bytes one after the other from some offset on; `putBytes` is that loop, and the rules of the
functions follow from `putBytes_of_fits`.
-/

namespace Nookobo.Text

/-- An array of bytes. -/
@[ext] structure Buffer (size : Nat) where
  bytes : List UInt8
  length_bytes : bytes.length = size
deriving DecidableEq

/-- The array that ends with the NUL of a string. -/
def terminated (text : List UInt8) : Buffer (text.length + 1) := ⟨text ++ [0], by simp⟩

namespace Buffer

variable {size : Nat}

/-- An array of zeros. -/
def zeros (size : Nat) : Buffer size := ⟨List.replicate size 0, List.length_replicate⟩

/-- The byte at an offset, if it lies in the buffer. -/
def load (buffer : Buffer size) (offset : Nat) : Option UInt8 := buffer.bytes[offset]?

/-- A byte written at an offset, if it lies in the buffer. -/
def store (offset : Nat) (byte : UInt8) (buffer : Buffer size) : Option (Buffer size) :=
  if offset < size then
    some ⟨buffer.bytes.set offset byte, List.length_set.trans buffer.length_bytes⟩
  else none

/-- Store bytes one after the other. -/
def putBytes : Nat → List UInt8 → Buffer size → Option (Buffer size)
  | _, [], buffer => some buffer
  | offset, byte :: rest, buffer => (buffer.store offset byte).bind (putBytes (offset + 1) rest)

/-- The string in the array; looking for the NUL runs out of an array without one. -/
def string (buffer : Buffer size) : Option (List UInt8) :=
  if 0 ∈ buffer.bytes then some (cString buffer.bytes) else none

/-- The string that begins at an offset. -/
def stringAt (offset : Nat) (buffer : Buffer size) : Option (List UInt8) :=
  if 0 ∈ buffer.bytes.drop offset then some (cString (buffer.bytes.drop offset)) else none

/-! ## The C library -/

/-- `strlen`, if there is a NUL in the buffer. -/
def strlen (buffer : Buffer size) : Option Nat := buffer.string.map List.length

/-- `strcat`, if the result fits. -/
def strcat (text : List UInt8) (buffer : Buffer size) : Option (Buffer size) :=
  buffer.strlen.bind fun length => buffer.putBytes length (text ++ [0])

/-- `strncpy`: at most `count` bytes, and zeros up to `count`. -/
def strncpy (text : List UInt8) (count : Nat) (buffer : Buffer size) : Option (Buffer size) :=
  buffer.putBytes 0 (text.take count ++ List.replicate (count - text.length) 0)

/-- `snprintf` of a text into `count` bytes. -/
def snprintf (count : Nat) (text : List UInt8) (buffer : Buffer size) : Option (Buffer size) :=
  buffer.putBytes 0 (text.take (count - 1) ++ [0])

/-- `memset` from the beginning of the buffer, if it fits. -/
def memset (byte : UInt8) (count : Nat) (buffer : Buffer size) : Option (Buffer size) :=
  buffer.putBytes 0 (List.replicate count byte)

/-! ## What is held -/

/-- The array holds the string, with its NUL. -/
structure Holds (buffer : Buffer size) (text : List UInt8) : Prop where
  nulFree : ∀ byte ∈ text, byte ≠ 0
  stored : text ++ [0] <+: buffer.bytes

/-- A C string has no NUL. -/
theorem nulFree_cString (bytes : List UInt8) : ∀ byte ∈ cString bytes, byte ≠ 0 := by
  intro byte member
  have kept := List.mem_takeWhile_imp member
  exact of_decide_eq_true kept

/-- Two texts without a NUL have none together. -/
theorem nulFree_append {front back : List UInt8} (frontFree : ∀ byte ∈ front, byte ≠ 0)
    (backFree : ∀ byte ∈ back, byte ≠ 0) : ∀ byte ∈ front ++ back, byte ≠ 0 := by
  intro byte member
  rcases List.mem_append.mp member with early | late
  · exact frontFree byte early
  · exact backFree byte late

/-- A text without a NUL is read back up to the NUL behind it. -/
theorem cString_of_nulFree {text : List UInt8} (nulFree : ∀ byte ∈ text, byte ≠ 0)
    (rest : List UInt8) : cString (text ++ 0 :: rest) = text := by
  unfold cString
  rw [List.takeWhile_append_of_pos]
  · simp
  · intro byte member
    exact decide_eq_true (nulFree byte member)

namespace Holds

variable {buffer : Buffer size} {text : List UInt8}

/-- The string of a buffer that holds a text. -/
theorem string (holds : buffer.Holds text) : buffer.string = some text := by
  obtain ⟨rest, stored⟩ := holds.stored
  have shape : buffer.bytes = text ++ 0 :: rest := by
    rw [← stored, List.append_assoc]
    rfl
  unfold Buffer.string
  rw [if_pos (by rw [shape]; simp), shape, cString_of_nulFree holds.nulFree]

/-- The length of the string of a buffer that holds a text. -/
theorem strlen (holds : buffer.Holds text) : buffer.strlen = some text.length := by
  unfold Buffer.strlen
  rw [holds.string]
  rfl

/-- A buffer is longer than the text it holds. -/
theorem length_lt (holds : buffer.Holds text) : text.length < size := by
  have bound := holds.stored.length_le
  rw [List.length_append, buffer.length_bytes] at bound
  exact bound

end Holds

/-! ## Storing -/

section Cell

variable {buffer : Buffer size} {front back : List UInt8} {old : UInt8}

/-- The byte between two parts of a buffer. -/
theorem load_at (shape : buffer.bytes = front ++ old :: back) :
    buffer.load front.length = some old := by
  unfold load
  rw [shape, List.getElem?_append_right (Nat.le_refl _), Nat.sub_self]
  rfl

/-- A byte written between two parts of a buffer leaves both alone. -/
theorem store_at (shape : buffer.bytes = front ++ old :: back) (byte : UInt8) :
    ∃ after, buffer.store front.length byte = some after ∧
      after.bytes = front ++ byte :: back := by
  have bound := congrArg List.length shape
  rw [buffer.length_bytes, List.length_append, List.length_cons] at bound
  unfold store
  rw [if_pos (by omega)]
  refine ⟨_, rfl, ?_⟩
  dsimp only
  rw [shape, List.set_append_right _ _ (Nat.le_refl _), Nat.sub_self]
  rfl

/-- One byte more behind what is stored at the front. -/
theorem store_next (held : front <+: buffer.bytes) (room : front.length < size) (byte : UInt8) :
    ∃ after, buffer.store front.length byte = some after ∧ front ++ [byte] <+: after.bytes := by
  obtain ⟨rest, shape⟩ := held
  cases rest with
  | nil =>
      have bound := congrArg List.length shape
      rw [List.append_nil, buffer.length_bytes] at bound
      omega
  | cons old back =>
      obtain ⟨after, stores, bytes⟩ := store_at shape.symm byte
      exact ⟨after, stores, back, by rw [bytes, List.append_assoc]; rfl⟩

end Cell

/-- Bytes that fit are stored, and what is before and behind them stays. -/
theorem putBytes_of_fits (offset : Nat) (bytes : List UInt8) (buffer : Buffer size)
    (fits : offset + bytes.length ≤ size) :
    ∃ after, buffer.putBytes offset bytes = some after ∧
      after.bytes =
        buffer.bytes.take offset ++ bytes ++ buffer.bytes.drop (offset + bytes.length) := by
  induction bytes generalizing offset buffer with
  | nil => exact ⟨buffer, rfl, by simp⟩
  | cons byte rest ih =>
      rw [List.length_cons] at fits
      have inside : offset < size := by omega
      have bound := buffer.length_bytes
      obtain ⟨after, stores, bytes⟩ := ih (offset + 1)
        ⟨buffer.bytes.set offset byte, List.length_set.trans bound⟩ (by omega)
      refine ⟨after, ?_, ?_⟩
      · unfold putBytes store
        rw [if_pos inside]
        exact stores
      · rw [bytes]
        have taken : (buffer.bytes.set offset byte).take (offset + 1) =
            buffer.bytes.take offset ++ [byte] := by
          rw [List.take_add_one, List.take_set_of_le (Nat.le_refl _), List.getElem?_set_self
            (by omega)]
          rfl
        have dropped : (buffer.bytes.set offset byte).drop (offset + 1 + rest.length) =
            buffer.bytes.drop (offset + (byte :: rest).length) := by
          rw [List.drop_set_of_lt (by omega), List.length_cons]
          congr 1
          omega
        dsimp only
        rw [taken, dropped, List.append_assoc, List.append_assoc, List.append_assoc]
        rfl

/-- Bytes that do not fit are not stored. -/
theorem putBytes_eq_none {offset : Nat} {bytes : List UInt8} {buffer : Buffer size}
    (some : bytes ≠ []) (beyond : size < offset + bytes.length) :
    buffer.putBytes offset bytes = none := by
  induction bytes generalizing offset buffer with
  | nil => exact absurd rfl some
  | cons byte rest ih =>
      rw [List.length_cons] at beyond
      unfold putBytes store
      by_cases inside : offset < size
      · rw [if_pos inside, Option.bind_some]
        refine ih ?_ (by omega)
        rintro rfl
        rw [List.length_nil] at beyond
        omega
      · rw [if_neg inside, Option.bind_none]

/-- A string that is stored with its NUL is held, and what is behind it stays. -/
theorem putBytes_string {text : List UInt8} (nulFree : ∀ byte ∈ text, byte ≠ 0)
    {front : List UInt8} (buffer : Buffer size) (held : front <+: buffer.bytes)
    (frontFree : ∀ byte ∈ front, byte ≠ 0) (fits : front.length + text.length < size) :
    ∃ after, buffer.putBytes front.length (text ++ [0]) = some after ∧
      after.Holds (front ++ text) ∧
      ∀ offset, front.length + text.length < offset → after.load offset = buffer.load offset := by
  obtain ⟨after, stores, bytes⟩ := putBytes_of_fits front.length (text ++ [0]) buffer
    (by rw [List.length_append]; exact fits)
  obtain ⟨rest, shape⟩ := held
  rw [← shape, List.take_left, shape, ← List.append_assoc, List.length_append] at bytes
  refine ⟨after, stores, ⟨nulFree_append frontFree nulFree, ?_⟩, ?_⟩
  · rw [bytes]
    exact List.prefix_append _ _
  · intro offset beyond
    unfold load
    rw [bytes, List.getElem?_append_right (by simp; omega), List.getElem?_drop]
    congr 1
    simp
    omega

/-! ## The rules of the C library -/

section Rules

variable {buffer : Buffer size} {text : List UInt8}

/-- `strcat` puts a text that fits behind the one held, and writes nothing beyond it. -/
theorem Holds.strcat (holds : buffer.Holds text) {more : List UInt8}
    (nulFree : ∀ byte ∈ more, byte ≠ 0) (room : text.length + more.length < size) :
    ∃ after, buffer.strcat more = some after ∧ after.Holds (text ++ more) ∧
      ∀ offset, text.length + more.length < offset → after.load offset = buffer.load offset := by
  have held : text <+: buffer.bytes := (List.prefix_append text [0]).trans holds.stored
  obtain ⟨after, stores, result⟩ := putBytes_string nulFree buffer held holds.nulFree room
  refine ⟨after, ?_, result⟩
  unfold Buffer.strcat
  rw [holds.strlen]
  exact stores

/-- `snprintf` leaves the part of the text that fits. -/
theorem snprintf_holds (nulFree : ∀ byte ∈ text, byte ≠ 0) {room : Nat} (fits : room + 1 ≤ size)
    (buffer : Buffer size) :
    ∃ after, buffer.snprintf (room + 1) text = some after ∧ after.Holds (text.take room) := by
  have bound := List.length_take_le room text
  have cutFree : ∀ byte ∈ text.take room, byte ≠ 0 :=
    fun byte member => nulFree byte (List.mem_of_mem_take member)
  obtain ⟨after, stores, holds, _⟩ := putBytes_string cutFree buffer (List.nil_prefix)
    (fun byte member => by cases member) (by rw [List.length_nil]; omega)
  exact ⟨after, stores, holds⟩

/-- A copy that may leave no NUL of its own is terminated by the one behind it. -/
theorem strncpy_holds (nulFree : ∀ byte ∈ text, byte ≠ 0) {count : Nat} (less : count < size)
    (nul : buffer.load count = some 0) :
    ∃ after, buffer.strncpy text count = some after ∧ after.Holds (text.take count) ∧
      after.load count = some 0 := by
  have written : (text.take count ++ List.replicate (count - text.length) (0 : UInt8)).length =
      count := by
    rw [List.length_append, List.length_take, List.length_replicate]
    omega
  obtain ⟨after, stores, bytes⟩ := putBytes_of_fits 0
    (text.take count ++ List.replicate (count - text.length) 0) buffer (by omega)
  rw [List.take_zero, List.nil_append, Nat.zero_add, written] at bytes
  unfold load at nul
  have rest : buffer.bytes.drop count = 0 :: buffer.bytes.drop (count + 1) := by
    obtain ⟨inside, same⟩ := List.getElem?_eq_some_iff.mp nul
    rw [List.drop_eq_getElem_cons inside, same]
  refine ⟨after, stores, ⟨fun byte member => nulFree byte (List.mem_of_mem_take member), ?_⟩, ?_⟩
  · rw [bytes, rest, List.append_assoc, List.prefix_append_right_inj]
    cases count - text.length with
    | zero => exact ⟨_, rfl⟩
    | succ more => exact ⟨_, rfl⟩
  · unfold load
    rw [bytes, List.getElem?_append_right (Nat.le_of_eq written), written, Nat.sub_self, rest]
    rfl

/-- An array filled with zeros. -/
theorem memset_zeros (buffer : Buffer size) : buffer.memset 0 size = some (zeros size) := by
  obtain ⟨after, stores, bytes⟩ := putBytes_of_fits 0 (List.replicate size 0) buffer
    (by rw [List.length_replicate]; omega)
  rw [List.take_zero, List.nil_append, Nat.zero_add, List.length_replicate,
    List.drop_of_length_le (Nat.le_of_eq buffer.length_bytes), List.append_nil] at bytes
  have same : after = zeros size := by
    ext1
    exact bytes
  exact stores.trans (congrArg some same)

/-- A cleared buffer holds the empty text. -/
theorem holds_zeros (less : Nat) : (zeros (less + 1)).Holds [] :=
  ⟨(fun byte member => by cases member), ⟨List.replicate less 0, rfl⟩⟩

/-- A cleared buffer has nothing but zeros. -/
theorem load_zeros {offset : Nat} (inside : offset < size) : (zeros size).load offset = some 0 := by
  unfold load zeros
  rw [List.getElem?_replicate, if_pos inside]

/-- A NUL over the last byte of a string. -/
theorem Holds.chop (holds : buffer.Holds text) (someByte : text ≠ []) :
    ∃ after, buffer.store (text.length - 1) 0 = some after ∧ after.Holds text.dropLast ∧
      ∀ offset, text.length ≤ offset → after.load offset = buffer.load offset := by
  have bound := holds.length_lt
  have positive := List.length_pos_iff.mpr someByte
  obtain ⟨rest, stored⟩ := holds.stored
  unfold store
  rw [if_pos (by omega)]
  refine ⟨_, rfl, ⟨fun byte member => holds.nulFree byte (List.dropLast_subset text member), ?_⟩,
    ?_⟩
  · have last : text = text.dropLast ++ [text.getLast someByte] :=
      (List.dropLast_concat_getLast someByte).symm
    have cut : text.set (text.length - 1) 0 = text.dropLast ++ [0] := by
      rw [← List.length_dropLast]
      nth_rewrite 1 [last]
      rw [List.set_append_right _ _ (Nat.le_refl _), Nat.sub_self]
      rfl
    dsimp only
    rw [← stored, List.append_assoc, List.set_append_left _ _ (by omega), cut]
    exact List.prefix_append _ _
  · intro offset beyond
    unfold load
    exact List.getElem?_set_ne (by omega)

end Rules

end Buffer

end Nookobo.Text
