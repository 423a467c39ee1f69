import Mathlib.Tactic.Ring
import Nookobo.Text.Buffer

/-!
# Little-endian fields of MTP containers

`poke08`, `poke16`, `poke32`, `poke_array`, `peek` and `peek64`. A writer gets
an index and returns the next one, or a negative index that the writers after it
hand on, so that a chain of them is tested once at its end. The arrays are
`Buffer`s: an access outside has no result.
-/

namespace Nookobo.Mtp

open Nookobo.Text

variable {size : Nat}

/-- The bytes of a number, the lowest first. -/
def littleEndian : Nat → Nat → List UInt8
  | 0, _ => []
  | count + 1, value => UInt8.ofNat value :: littleEndian count (value / 256)

/-- What `poke08`, `poke16` and `poke32` have in common. -/
def poke (bytes : List UInt8) (index maxsize : Int) (buffer : Buffer size) :
    Option (Int × Buffer size) :=
  if index < 0 then some (index, buffer)
  else if index + bytes.length ≥ maxsize then some (-1, buffer)
  else (buffer.putBytes index.toNat bytes).map fun after => (index + bytes.length, after)

/-- `poke08`. -/
def poke08 (index maxsize : Int) (data : Nat) (buffer : Buffer size) :
    Option (Int × Buffer size) :=
  poke (littleEndian 1 data) index maxsize buffer

/-- `poke16`. -/
def poke16 (index maxsize : Int) (data : Nat) (buffer : Buffer size) :
    Option (Int × Buffer size) :=
  poke (littleEndian 2 data) index maxsize buffer

/-- `poke32`. -/
def poke32 (index maxsize : Int) (data : Nat) (buffer : Buffer size) :
    Option (Int × Buffer size) :=
  poke (littleEndian 4 data) index maxsize buffer

/-- `poke_array`: the bytes, after their number of elements when `prefixed`. -/
def pokeArray (index maxsize : Int) (elementsize : Nat) (bufferin : List UInt8) (prefixed : Bool)
    (buffer : Buffer size) : Option (Int × Buffer size) :=
  let count := if prefixed then littleEndian 4 (bufferin.length / elementsize) else []
  poke (count ++ bufferin) index maxsize buffer

/-- The loop of `peek` and `peek64`. -/
def peekFrom (buffer : Buffer size) : Nat → Nat → Nat → Nat → Option Nat
  | _, _, 0, data => some data
  | index, shift, typesize + 1, data =>
      (buffer.load index).bind fun byte =>
        peekFrom buffer (index + 1) (shift + 8) typesize (data ||| byte.toNat <<< shift)

/-- `peek` of at most four bytes, and `peek64`. -/
def peek (buffer : Buffer size) (index typesize : Nat) : Option Nat :=
  peekFrom buffer index 0 typesize 0

/-! ## Writing -/

/-- A number has as many bytes as it is given. -/
@[simp] theorem length_littleEndian (count value : Nat) :
    (littleEndian count value).length = count := by
  induction count generalizing value with
  | zero => rfl
  | succ count ih => exact congrArg (· + 1) (ih _)

/-- `after` is `buffer` with the bytes stored from the offset on. -/
def Written (buffer : Buffer size) (offset : Nat) (bytes : List UInt8) (after : Buffer size) :
    Prop :=
  after.bytes = buffer.bytes.take offset ++ bytes ++ buffer.bytes.drop (offset + bytes.length)

/-- Writing nothing writes nothing. -/
theorem Written.nil (buffer : Buffer size) (offset : Nat) : Written buffer offset [] buffer := by
  simp [Written]

/-- Two writes, the second where the first ended. -/
theorem Written.trans {buffer between after : Buffer size} {offset : Nat}
    {first second : List UInt8} (fits : offset + first.length ≤ size)
    (one : Written buffer offset first between)
    (two : Written between (offset + first.length) second after) :
    Written buffer offset (first ++ second) after := by
  have front : (buffer.bytes.take offset ++ first).length = offset + first.length := by
    rw [List.length_append, List.length_take, buffer.length_bytes]
    omega
  rw [Written] at one two ⊢
  have behind :
      (buffer.bytes.take offset ++ first).length ≤ offset + first.length + second.length :=
    front ▸ Nat.le_add_right _ _
  rw [two, one, List.take_left' front, List.drop_append, List.drop_eq_nil_of_le behind, front,
    List.nil_append, Nat.add_sub_cancel_left, List.drop_drop, List.length_append]
  simp only [List.append_assoc, Nat.add_assoc]

/-- What is written can be read, and the bytes before it are as they were. -/
theorem Written.take {buffer after : Buffer size} {offset : Nat} {bytes : List UInt8}
    (fits : offset + bytes.length ≤ size) (written : Written buffer offset bytes after) :
    after.bytes.take (offset + bytes.length) = buffer.bytes.take offset ++ bytes := by
  have front : (buffer.bytes.take offset ++ bytes).length = offset + bytes.length := by
    rw [List.length_append, List.length_take, buffer.length_bytes]
    omega
  rw [written, List.take_left' front]

/-- A write over a part of what was just written. -/
theorem Written.overwrite {buffer between after : Buffer size} {offset : Nat}
    {front old new back : List UInt8} (fits : offset + front.length + old.length ≤ size)
    (same : old.length = new.length) (one : Written buffer offset (front ++ old ++ back) between)
    (two : Written between (offset + front.length) new after) :
    Written buffer offset (front ++ new ++ back) after := by
  have lengths : (buffer.bytes.take offset ++ front).length = offset + front.length := by
    rw [List.length_append, List.length_take, buffer.length_bytes]
    omega
  rw [Written] at one two ⊢
  have shape : between.bytes = (buffer.bytes.take offset ++ front) ++
      (old ++ (back ++ buffer.bytes.drop (offset + (front ++ old ++ back).length))) := by
    rw [one]
    simp only [List.append_assoc]
  rw [two, shape, List.take_left' lengths, ← lengths, List.drop_append, ← same,
    List.drop_eq_nil_of_le (Nat.le_add_right _ _), List.nil_append, Nat.add_sub_cancel_left,
    List.drop_left]
  simp only [List.append_assoc, List.length_append, same]

/-- The bytes in front of a write are as they were. -/
theorem Written.take_le {buffer after : Buffer size} {offset index : Nat} {bytes : List UInt8}
    (before : index ≤ offset) (inside : offset ≤ size)
    (written : Written buffer offset bytes after) :
    after.bytes.take index = buffer.bytes.take index := by
  rw [written, List.append_assoc, List.take_append_of_le_length, List.take_take,
    Nat.min_eq_left before]
  rw [List.length_take, buffer.length_bytes]
  omega

/-- A single store. -/
theorem store_written (buffer : Buffer size) (offset : Nat) (byte : UInt8)
    (inside : offset < size) :
    ∃ after, buffer.store offset byte = some after ∧ Written buffer offset [byte] after := by
  obtain ⟨after, stores, shape⟩ := buffer.putBytes_of_fits offset [byte] inside
  refine ⟨after, ?_, shape⟩
  rw [← stores, Buffer.putBytes]
  exact (Option.bind_fun_some _).symm

/-- A writer whose index is in the array and whose bytes end before `maxsize`. -/
theorem poke_of_fits {bytes : List UInt8} {offset : Nat} {maxsize : Int}
    (fits : (offset + bytes.length : Int) < maxsize) (inside : maxsize ≤ size)
    (buffer : Buffer size) :
    ∃ after, poke bytes offset maxsize buffer = some (↑(offset + bytes.length), after) ∧
      Written buffer offset bytes after := by
  obtain ⟨after, stores, shape⟩ := buffer.putBytes_of_fits offset bytes (by omega)
  refine ⟨after, ?_, shape⟩
  rw [poke, if_neg (by omega), if_neg (by omega), Int.toNat_natCast, stores, Option.map_some,
    Int.natCast_add]

/-- A number is written where it fits. -/
theorem poke32_of_fits (data offset : Nat) {maxsize : Int} (fits : (offset + 4 : Int) < maxsize)
    (inside : maxsize ≤ size) (buffer : Buffer size) :
    ∃ after, poke32 offset maxsize data buffer = some (↑(offset + 4), after) ∧
      Written buffer offset (littleEndian 4 data) after := by
  have room : (offset + (littleEndian 4 data).length : Int) < maxsize := by
    rwa [length_littleEndian]
  have pokes := poke_of_fits room inside buffer
  rwa [length_littleEndian] at pokes

/-- A writer whose bytes would reach `maxsize` writes nothing. -/
theorem poke_of_not_fits {bytes : List UInt8} {offset : Nat} {maxsize : Int}
    (beyond : maxsize ≤ offset + bytes.length) (buffer : Buffer size) :
    poke bytes offset maxsize buffer = some (-1, buffer) := by
  rw [poke, if_neg (by omega), if_pos beyond]

/-- A writer hands a negative index on. -/
theorem poke_of_neg {bytes : List UInt8} {index maxsize : Int} (failed : index < 0)
    (buffer : Buffer size) : poke bytes index maxsize buffer = some (index, buffer) :=
  if_pos failed

/-! ## Reading -/

/-- Little-endian bytes are read back, whatever is around them. -/
theorem peekFrom_littleEndian {buffer : Buffer size} {front back : List UInt8}
    (count value shift data : Nat) (low : data < 2 ^ shift)
    (shape : buffer.bytes = front ++ littleEndian count value ++ back) :
    peekFrom buffer front.length shift count data =
      some (data + value % 256 ^ count * 2 ^ shift) := by
  induction count generalizing front value shift data with
  | zero => simp [peekFrom, Nat.mod_one]
  | succ count ih =>
      rw [littleEndian] at shape
      have here : buffer.bytes =
          front ++ UInt8.ofNat value :: (littleEndian count (value / 256) ++ back) := by
        rw [shape, List.append_assoc, List.cons_append]
      have next : buffer.bytes =
          (front ++ [UInt8.ofNat value]) ++ littleEndian count (value / 256) ++ back := by
        rw [here]
        simp only [List.append_assoc, List.cons_append, List.nil_append]
      have digit : (UInt8.ofNat value).toNat = value % 256 := UInt8.toNat_ofNat'
      have bits :
          data ||| (UInt8.ofNat value).toNat <<< shift = data + value % 256 * 2 ^ shift := by
        rw [digit, Nat.or_comm, ← Nat.shiftLeft_add_eq_or_of_lt low, Nat.shiftLeft_eq,
          Nat.add_comm]
      have below : data + value % 256 * 2 ^ shift < 2 ^ (shift + 8) := by
        have digitBound : value % 256 + 1 ≤ 256 := Nat.mod_lt value (by decide)
        calc data + value % 256 * 2 ^ shift
            < 2 ^ shift + value % 256 * 2 ^ shift := by omega
          _ = (value % 256 + 1) * 2 ^ shift := by ring
          _ ≤ 256 * 2 ^ shift := Nat.mul_le_mul_right _ digitBound
          _ = 2 ^ (shift + 8) := by ring
      have step := ih (value / 256) (shift + 8) _ below next
      rw [List.length_append, List.length_singleton] at step
      rw [peekFrom, Buffer.load_at here, Option.bind_some, bits, step]
      congr 1
      have split : value % 256 ^ (count + 1) = value % 256 + 256 * (value / 256 % 256 ^ count) := by
        rw [Nat.pow_succ, Nat.mul_comm (256 ^ count), Nat.mod_mul]
      rw [split, pow_add]
      ring

/-- A number is read back, up to its bytes. -/
theorem peek_littleEndian {buffer : Buffer size} {index : Nat} (front back : List UInt8)
    (count value : Nat) (position : front.length = index)
    (shape : buffer.bytes = front ++ littleEndian count value ++ back) :
    peek buffer index count = some (value % 256 ^ count) := by
  rw [peek, ← position, peekFrom_littleEndian count value 0 0 (by decide) shape]
  simp

end Nookobo.Mtp
