import Mathlib.Data.List.Basic

/-!
# Files that are written at a position

A write replaces what is there and can go beyond the end; a gap that it leaves is
filled with a blank. Writes one behind the other are one write.
-/

namespace Nookobo.Semantics

universe u

variable {α : Type u} (blank : α)

/-- The first elements of a file, as many as there are to be in front of a position. -/
def padTo (position : Nat) (content : List α) : List α :=
  (content ++ List.replicate (position - content.length) blank).take position

/-- A write at a position. One of nothing does not extend the file. -/
def writeAt (position : Nat) (data content : List α) : List α :=
  if data.isEmpty then content
  else padTo blank position content ++ data ++ content.drop (position + data.length)

/-- Padding reaches the position. -/
@[simp] theorem length_padTo (position : Nat) (content : List α) :
    (padTo blank position content).length = position := by
  rw [padTo, List.length_take, List.length_append, List.length_replicate]
  omega

/-- Writing nothing changes nothing. -/
@[simp] theorem writeAt_nil (position : Nat) (content : List α) :
    writeAt blank position [] content = content := rfl

/-- A write pads up to its position and keeps what is behind it. -/
theorem writeAt_of_ne {data : List α} (nonempty : data ≠ []) (position : Nat) (content : List α) :
    writeAt blank position data content =
      padTo blank position content ++ data ++ content.drop (position + data.length) :=
  if_neg fun isEmpty => nonempty (List.isEmpty_iff.mp isEmpty)

/-- A file that is written from its front on, and was no longer, is what is written. -/
theorem writeAt_zero {data content : List α} (covers : content.length ≤ data.length) :
    writeAt blank 0 data content = data := by
  by_cases isNil : data = []
  · subst isNil
    exact List.length_eq_zero_iff.mp (Nat.le_zero.mp covers)
  · rw [writeAt_of_ne blank isNil, padTo, List.take_zero, List.nil_append, Nat.zero_add,
      List.drop_of_length_le covers, List.append_nil]

/-- The second write begins where the first ended. -/
theorem writeAt_append (position : Nat) (first second content : List α) :
    writeAt blank (position + first.length) second (writeAt blank position first content) =
      writeAt blank position (first ++ second) content := by
  by_cases isNil : first = []
  · rw [isNil]
    rfl
  by_cases isNil' : second = []
  · rw [isNil', List.append_nil]
    rfl
  have nonempty : first ++ second ≠ [] := fun both => isNil (List.append_eq_nil_iff.mp both).1
  have front : (padTo blank position content ++ first).length = position + first.length := by
    rw [List.length_append, length_padTo]
  rw [writeAt_of_ne blank isNil', writeAt_of_ne blank nonempty, writeAt_of_ne blank isNil]
  have pad : padTo blank (position + first.length)
      (padTo blank position content ++ first ++ content.drop (position + first.length)) =
        padTo blank position content ++ first := by
    rw [padTo, List.append_assoc, List.append_assoc, ← List.append_assoc,
      List.take_left' front]
  rw [pad, List.drop_append, front, List.drop_of_length_le (by omega), List.nil_append,
    List.drop_drop, List.length_append]
  simp only [List.append_assoc]
  congr 4
  omega

end Nookobo.Semantics
