import Mathlib.Logic.Function.Basic
import Mathlib.Data.List.Basic

/-!
# Rings

A ring is an array with a read and a write position that advance modulo its size.
Equal positions mean an empty ring, so one slot always stays unused: a ring of
`size` slots holds at most `size - 1` items. `contents` is the list a ring stands
for; `contents_push` and `contents_drop` say that the two elementary operations are
those of a queue.
-/

namespace Nookobo.Semantics

universe u

/-- An array with two positions: taken from at the head, put in at the tail. -/
structure RingBuffer (α : Type u) where
  slots : Nat → α
  head : Nat
  tail : Nat

namespace RingBuffer

variable {α : Type u} (size : Nat)

/-- Write at the tail and advance it. -/
def push (item : α) (ring : RingBuffer α) : RingBuffer α :=
  { ring with
    slots := Function.update ring.slots ring.tail item
    tail := (ring.tail + 1) % size }

/-- Advance the head. -/
def drop (ring : RingBuffer α) : RingBuffer α :=
  { ring with head := (ring.head + 1) % size }

/-- Advancing the tail would meet the head. -/
def Full (ring : RingBuffer α) : Prop := (ring.tail + 1) % size = ring.head

instance (ring : RingBuffer α) : Decidable (ring.Full size) :=
  inferInstanceAs (Decidable (_ = _))

/-- The number of slots from the head to the tail. -/
def count (ring : RingBuffer α) : Nat :=
  if ring.head ≤ ring.tail then ring.tail - ring.head else ring.tail + size - ring.head

/-- The items from the head to the tail. -/
def contents (ring : RingBuffer α) : List α :=
  (List.range (ring.count size)).map fun offset => ring.slots ((ring.head + offset) % size)

/-- Both positions lie in the array. -/
structure Bounded (ring : RingBuffer α) : Prop where
  head_lt : ring.head < size
  tail_lt : ring.tail < size

variable {size} {ring : RingBuffer α}

/-- The contents are as many items as are counted. -/
@[simp] theorem contents_length : (ring.contents size).length = ring.count size := by
  simp [contents]

/-- A position advances by one or goes back to the start. -/
theorem advance_eq {position : Nat} (inside : position < size) :
    (position + 1) % size = if position + 1 = size then 0 else position + 1 := by
  split
  · next wraps => rw [wraps, Nat.mod_self]
  · exact Nat.mod_eq_of_lt (by omega)

namespace Bounded

/-- Putting an item in keeps the positions inside. -/
theorem push (bounded : ring.Bounded size) (item : α) : (ring.push size item).Bounded size :=
  ⟨bounded.head_lt, Nat.mod_lt _ (Nat.zero_lt_of_lt bounded.tail_lt)⟩

/-- Taking an item out keeps the positions inside. -/
theorem drop (bounded : ring.Bounded size) : (ring.drop size).Bounded size :=
  ⟨Nat.mod_lt _ (Nat.zero_lt_of_lt bounded.head_lt), bounded.tail_lt⟩

/-- One place always stays free. -/
theorem count_lt (bounded : ring.Bounded size) : ring.count size < size := by
  obtain ⟨headInside, tailInside⟩ := bounded
  unfold count
  split <;> omega

/-- Nothing is counted exactly when the positions meet. -/
theorem count_eq_zero_iff (bounded : ring.Bounded size) :
    ring.count size = 0 ↔ ring.head = ring.tail := by
  obtain ⟨headInside, tailInside⟩ := bounded
  unfold count
  split <;> omega

/-- The contents are empty exactly when the positions meet. -/
theorem contents_eq_nil_iff (bounded : ring.Bounded size) :
    ring.contents size = [] ↔ ring.head = ring.tail := by
  rw [← bounded.count_eq_zero_iff, ← contents_length, List.length_eq_zero_iff]

/-- The test for a full ring counts its items. -/
theorem full_iff (bounded : ring.Bounded size) :
    ring.Full size ↔ ring.count size = size - 1 := by
  obtain ⟨headInside, tailInside⟩ := bounded
  rw [Full, advance_eq tailInside]
  unfold count
  split <;> split <;> omega

/-- An item put into a ring with room is counted. -/
theorem count_push (bounded : ring.Bounded size) (room : ¬ ring.Full size) (item : α) :
    (ring.push size item).count size = ring.count size + 1 := by
  obtain ⟨headInside, tailInside⟩ := bounded
  rw [Full, advance_eq tailInside] at room
  simp only [count, RingBuffer.push, advance_eq tailInside]
  grind

/-- An item taken out is not counted any more. -/
theorem count_drop (bounded : ring.Bounded size) (occupied : ring.head ≠ ring.tail) :
    (ring.drop size).count size + 1 = ring.count size := by
  obtain ⟨headInside, tailInside⟩ := bounded
  simp only [count, RingBuffer.drop, advance_eq headInside]
  grind

/-- The offset of a stored item never reaches the tail's slot. -/
theorem slot_ne_tail (bounded : ring.Bounded size) {offset : Nat}
    (stored : offset < ring.count size) : (ring.head + offset) % size ≠ ring.tail := by
  obtain ⟨headInside, tailInside⟩ := bounded
  unfold count at stored
  by_cases straight : ring.head + offset < size
  · rw [Nat.mod_eq_of_lt straight]
    split at stored <;> omega
  · rw [Nat.mod_eq_sub_mod (by omega), Nat.mod_eq_of_lt (by split at stored <;> omega)]
    split at stored <;> omega

/-- The slot after the last stored item is the tail's. -/
theorem slot_count (bounded : ring.Bounded size) :
    (ring.head + ring.count size) % size = ring.tail := by
  obtain ⟨headInside, tailInside⟩ := bounded
  unfold count
  split
  · next ordered => rw [Nat.add_sub_cancel' ordered, Nat.mod_eq_of_lt tailInside]
  · rw [Nat.add_sub_cancel' (by omega), Nat.add_mod_right, Nat.mod_eq_of_lt tailInside]

/-- An item put into a ring with room stands behind the others. -/
theorem contents_push (bounded : ring.Bounded size) (room : ¬ ring.Full size) (item : α) :
    (ring.push size item).contents size = ring.contents size ++ [item] := by
  have kept : ∀ offset ∈ List.range (ring.count size),
      (ring.push size item).slots ((ring.head + offset) % size) =
        ring.slots ((ring.head + offset) % size) := by
    intro offset inside
    exact Function.update_of_ne (bounded.slot_ne_tail (List.mem_range.mp inside)) _ _
  have last : (ring.push size item).slots ((ring.head + ring.count size) % size) = item := by
    rw [bounded.slot_count]
    exact Function.update_self _ _ _
  rw [contents, bounded.count_push room, List.range_succ, List.map_append]
  congr 1
  · exact List.map_congr_left kept
  · rw [List.map_singleton]
    exact congrArg (fun item => [item]) last

/-- The item at the head is taken out first. -/
theorem contents_drop (bounded : ring.Bounded size) (occupied : ring.head ≠ ring.tail) :
    ring.contents size = ring.slots ring.head :: (ring.drop size).contents size := by
  rw [contents, ← bounded.count_drop occupied, List.range_succ_eq_map, List.map_cons,
    List.map_map, Nat.add_zero, Nat.mod_eq_of_lt bounded.head_lt]
  congr 1
  apply List.map_congr_left
  intro offset _
  simp only [Function.comp_apply, RingBuffer.drop, Nat.mod_add_mod]
  rw [Nat.add_right_comm, Nat.add_assoc]

end Bounded

end RingBuffer

end Nookobo.Semantics
