import Mathlib.Data.List.Basic

/-!
# Bulk transfers

A bulk pipe carries packets of at most `size` bytes, and a packet that is
shorter ends a transfer. A write is cut into packets and ends the transfer only
if its last packet is short, so data that fill their packets need an empty
packet behind them. `container` is one whole transfer. `sent_container` says
which sequences of writes amount to one, `transfer_container` and
`readBuffer_container` what the other side makes of it.
-/

namespace Nookobo.Semantics

universe u

variable {α : Type u}

namespace Bulk

/-- The packets of one write. -/
def packets (size : Nat) (data : List α) : List (List α) :=
  if size = 0 ∨ data.length ≤ size then [data]
  else data.take size :: packets size (data.drop size)
termination_by data.length
decreasing_by simp only [List.length_drop]; omega

/-- The packets of one transfer: the last one is short. -/
def container (size : Nat) (data : List α) : List (List α) :=
  if size = 0 ∨ data.length < size then [data]
  else data.take size :: container size (data.drop size)
termination_by data.length
decreasing_by simp only [List.length_drop]; omega

/-- The packets of a sequence of writes. -/
def sent (size : Nat) (writes : List (List α)) : List (List α) := writes.flatMap (packets size)

/-- A read into a buffer: it ends with a short packet or when the buffer is full. -/
def readBuffer (size : Nat) : Nat → List (List α) → Option (List α × List (List α))
  | _, [] => none
  | capacity, packet :: rest =>
      if packet.length < size ∨ capacity ≤ packet.length then some (packet, rest)
      else (readBuffer size (capacity - packet.length) rest).map fun (data, left) =>
        (packet ++ data, left)

variable {size : Nat}

/-- Data short of a packet are one packet. -/
theorem container_of_lt {data : List α} (short : data.length < size) :
    container size data = [data] := by
  rw [container, if_pos (.inr short)]

/-- Longer data begin with a full packet. -/
theorem container_of_le (positive : 0 < size) {data : List α} (long : size ≤ data.length) :
    container size data = data.take size :: container size (data.drop size) := by
  rw [container, if_neg (by omega)]

/-- The full packets of a transfer, and the one that ends it. -/
theorem length_container (positive : 0 < size) (data : List α) :
    (container size data).length = data.length / size + 1 := by
  by_cases short : data.length < size
  · rw [container_of_lt short, Nat.div_eq_of_lt short]
    rfl
  · have long := Nat.le_of_not_lt short
    have shorter : (data.drop size).length < data.length := by rw [List.length_drop]; omega
    rw [container_of_le positive long, List.length_cons, length_container positive,
      List.length_drop, ← Nat.add_div_right _ positive, Nat.sub_add_cancel long]
termination_by data.length

/-- Data up to a packet are one packet. -/
theorem packets_of_le {data : List α} (short : data.length ≤ size) :
    packets size data = [data] := by
  rw [packets, if_pos (.inr short)]

/-- Longer data begin with a full packet, and no empty one ends them. -/
theorem packets_of_lt (positive : 0 < size) {data : List α} (long : size < data.length) :
    packets size data = data.take size :: packets size (data.drop size) := by
  rw [packets, if_neg (by omega)]

/-- A write that fills its packets leaves the transfer open. -/
theorem packets_append_container (positive : 0 < size) {data : List α} (nonempty : data ≠ [])
    (full : size ∣ data.length) (rest : List α) :
    packets size data ++ container size rest = container size (data ++ rest) := by
  have atLeast := Nat.le_of_dvd (List.length_pos_iff.mpr nonempty) full
  have longer : size ≤ (data ++ rest).length := by rw [List.length_append]; omega
  rw [container_of_le positive longer, List.take_append_of_le_length atLeast,
    List.drop_append_of_le_length atLeast]
  by_cases last : data.length = size
  · rw [packets_of_le (Nat.le_of_eq last), List.take_of_length_le (Nat.le_of_eq last),
      List.drop_of_length_le (Nat.le_of_eq last)]
    rfl
  · have more : size < data.length := by omega
    have shorter : (data.drop size).length < data.length := by rw [List.length_drop]; omega
    rw [packets_of_lt positive more, List.cons_append]
    refine congrArg _ (packets_append_container positive ?_ ?_ rest)
    · exact List.ne_nil_of_length_pos (by rw [List.length_drop]; omega)
    · rw [List.length_drop]
      exact Nat.dvd_sub full (Nat.dvd_refl size)
termination_by data.length

/-- A write that does not fill its packets ends the transfer, and so does an empty one. -/
theorem packets_eq_container (positive : 0 < size) {data : List α}
    (short : data = [] ∨ ¬ size ∣ data.length) : packets size data = container size data := by
  by_cases fits : data.length < size
  · rw [container_of_lt fits, packets_of_le (Nat.le_of_lt fits)]
  · have notFull : ¬ size ∣ data.length := by
      rcases short with rfl | open'
      · exact absurd positive (by simpa using fits)
      · exact open'
    have longer : size < data.length := by
      rcases Nat.lt_or_eq_of_le (Nat.le_of_not_lt fits) with less | same
      · exact less
      · exact absurd (same ▸ Nat.dvd_refl size) notFull
    have shorter : (data.drop size).length < data.length := by rw [List.length_drop]; omega
    rw [packets_of_lt positive longer, container_of_le positive (Nat.le_of_lt longer)]
    refine congrArg _ (packets_eq_container positive (.inr fun full => notFull ?_))
    rw [List.length_drop] at full
    have whole := Nat.dvd_add full (Nat.dvd_refl size)
    rwa [Nat.sub_add_cancel (Nat.le_of_lt longer)] at whole
termination_by data.length

/-- Writes that all fill their packets leave the transfer open. -/
theorem sent_append_container (positive : 0 < size) {writes : List (List α)}
    (full : ∀ write ∈ writes, write ≠ [] ∧ size ∣ write.length) (rest : List α) :
    sent size writes ++ container size rest = container size (writes.flatten ++ rest) := by
  induction writes with
  | nil => rfl
  | cons write later ih =>
      obtain ⟨⟨filled, fills⟩, fulls⟩ := List.forall_mem_cons.mp full
      rw [sent, List.flatMap_cons, ← sent, List.append_assoc, ih fulls,
        packets_append_container positive filled fills, List.flatten_cons, List.append_assoc]

/-- Writes that fill their packets, a last one, and an empty one where the last fills its packets
too, are one transfer. -/
theorem sent_container (positive : 0 < size) {front : List (List α)} {last : List α}
    (full : ∀ write ∈ front, write ≠ [] ∧ size ∣ write.length) (nonempty : last ≠ []) :
    sent size (front ++ last :: if size ∣ last.length then [[]] else []) =
      container size (front.flatten ++ last) := by
  have ending : sent size (last :: if size ∣ last.length then [[]] else []) =
      container size last := by
    rw [sent, List.flatMap_cons]
    split
    · next fills =>
      rw [List.flatMap_singleton, packets_eq_container positive (.inl rfl),
        packets_append_container positive nonempty fills, List.append_nil]
    · next open' =>
      rw [List.flatMap_nil, List.append_nil, packets_eq_container positive (.inr open')]
  rw [sent, List.flatMap_append, ← sent, ← sent, ending, sent_append_container positive full]

/-- Writes that all fill their packets are no transfer: its end is missing. -/
theorem sent_ne_container (positive : 0 < size) {writes : List (List α)}
    (full : ∀ write ∈ writes, write ≠ [] ∧ size ∣ write.length) :
    sent size writes ≠ container size writes.flatten := by
  intro same
  have ended := sent_append_container positive full []
  rw [List.append_nil, container_of_lt (show ([] : List α).length < size from positive), same]
    at ended
  exact absurd (congrArg List.length ended) (by simp)

/-- A read takes packets from the pipe. -/
theorem length_readBuffer_lt {capacity : Nat} {pipe rest : List (List α)} {data : List α}
    (reads : readBuffer size capacity pipe = some (data, rest)) : rest.length < pipe.length := by
  induction pipe generalizing capacity data with
  | nil =>
      rw [readBuffer] at reads
      cases reads
  | cons packet later ih =>
      rw [readBuffer] at reads
      split at reads
      · cases reads
        exact Nat.lt_succ_self _
      · obtain ⟨⟨first, left⟩, read, same⟩ := Option.map_eq_some_iff.mp reads
        cases same
        exact Nat.lt_succ_of_lt (ih read)

/-- A buffer takes the beginning of a transfer, or all of it. -/
theorem readBuffer_container (positive : 0 < size) {capacity : Nat} (holdsSome : 0 < capacity)
    (fits : size ∣ capacity) (data : List α) (more : List (List α)) :
    readBuffer size capacity (container size data ++ more) =
      if data.length < capacity then some (data, more)
      else some (data.take capacity, container size (data.drop capacity) ++ more) := by
  have atLeast := Nat.le_of_dvd holdsSome fits
  by_cases short : data.length < size
  · rw [container_of_lt short, List.singleton_append, readBuffer, if_pos (.inl short),
      if_pos (by omega)]
  · have long := Nat.le_of_not_lt short
    have shorter : (data.drop size).length < data.length := by rw [List.length_drop]; omega
    rw [container_of_le positive long, List.cons_append, readBuffer, List.length_take,
      Nat.min_eq_left long]
    by_cases last : capacity = size
    · rw [if_pos (.inr (Nat.le_of_eq last)), if_neg (by omega), last]
    · have room : 0 < capacity - size := by omega
      rw [if_neg (by omega), readBuffer_container positive room
        (Nat.dvd_sub fits (Nat.dvd_refl size)), List.length_drop]
      by_cases whole : data.length < capacity
      · rw [if_pos (by omega), if_pos whole]
        exact congrArg (fun all => some (all, more)) (List.take_append_drop size data)
      · have first : data.take size ++ (data.drop size).take (capacity - size) =
            data.take capacity := by
          rw [← List.take_add, Nat.add_sub_cancel' atLeast]
        rw [if_neg (by omega), if_neg whole, List.drop_drop, Nat.add_sub_cancel' atLeast, ← first]
        rfl
termination_by data.length

end Bulk

end Nookobo.Semantics
