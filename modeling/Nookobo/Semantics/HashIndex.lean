import Mathlib.Logic.Function.Basic
import Mathlib.Data.List.Nodup

/-!
# Hash indexes

A table of buckets that is meant to find records by a key. `Indexes` says that
it does: each present record is in the bucket of its key, once, and nothing else
is. The rules say what an insertion, a removal and a change of other records
keep. `find?_eq_none_iff` and `find?_eq_find?` are what a reader gets: a search
of one bucket is a search of all records.
-/

namespace Nookobo.Semantics

universe u v

variable {Id : Type u} {Key : Type v}

/-- The bucket with a record behind its last one. -/
def bucketInsert (table : Nat → List Id) (bucket : Nat) (id : Id) : Nat → List Id :=
  Function.update table bucket (table bucket ++ [id])

/-- The bucket without the first occurrence of a record. -/
def bucketRemove [DecidableEq Id] (table : Nat → List Id) (bucket : Nat) (id : Id) :
    Nat → List Id :=
  Function.update table bucket ((table bucket).erase id)

/-- The buckets hold the present records, each once and by its key. -/
structure Indexes (bucketOf : Key → Nat) (table : Nat → List Id) (key : Id → Key)
    (present : Id → Prop) : Prop where
  mem_iff : ∀ bucket id, id ∈ table bucket ↔ present id ∧ bucketOf (key id) = bucket
  nodup : ∀ bucket, (table bucket).Nodup

namespace Indexes

variable {bucketOf : Key → Nat} {table : Nat → List Id} {key : Id → Key} {present : Id → Prop}

/-- An empty table. -/
theorem empty (bucketOf : Key → Nat) (key : Id → Key) :
    Indexes bucketOf (fun _ => []) key (fun _ => False) where
  mem_iff := by simp
  nodup := fun _ => List.nodup_nil

/-- Only the keys of the present records matter. -/
theorem congr (indexes : Indexes bucketOf table key present) {key' : Id → Key}
    {present' : Id → Prop} (samePresent : ∀ id, present' id ↔ present id)
    (sameKey : ∀ id, present id → key' id = key id) :
    Indexes bucketOf table key' present' where
  mem_iff := by
    intro bucket id
    rw [indexes.mem_iff, samePresent]
    exact and_congr_right fun here => by rw [sameKey id here]
  nodup := indexes.nodup

/-- A new record goes into the bucket of its key. -/
theorem insert (indexes : Indexes bucketOf table key present) {id : Id} (new : ¬ present id) :
    Indexes bucketOf (bucketInsert table (bucketOf (key id)) id) key
      (fun other => present other ∨ other = id) where
  mem_iff := by
    intro bucket other
    rw [bucketInsert, Function.update_apply]
    split
    · next same =>
      subst same
      rw [List.mem_append, indexes.mem_iff, List.mem_singleton]
      constructor
      · rintro (⟨here, place⟩ | rfl)
        · exact ⟨.inl here, place⟩
        · exact ⟨.inr rfl, rfl⟩
      · rintro ⟨here | rfl, place⟩
        · exact .inl ⟨here, place⟩
        · exact .inr rfl
    · next differs =>
      rw [indexes.mem_iff]
      refine and_congr_left fun place => ?_
      rw [or_iff_left]
      rintro rfl
      exact differs place.symm
  nodup := by
    intro bucket
    rw [bucketInsert, Function.update_apply]
    split
    · refine List.nodup_append.mpr ⟨indexes.nodup _, List.nodup_singleton id, ?_⟩
      intro a member b single same
      rw [List.mem_singleton.mp single] at same
      rw [same, indexes.mem_iff] at member
      exact new member.1
    · exact indexes.nodup bucket

/-- A record is taken out of the bucket of its key. -/
theorem remove [DecidableEq Id] (indexes : Indexes bucketOf table key present) (id : Id) :
    Indexes bucketOf (bucketRemove table (bucketOf (key id)) id) key
      (fun other => present other ∧ other ≠ id) where
  mem_iff := by
    intro bucket other
    rw [bucketRemove, Function.update_apply]
    split
    · next same =>
      rw [(indexes.nodup _).mem_erase_iff, indexes.mem_iff, same]
      tauto
    · next differs =>
      rw [indexes.mem_iff, and_assoc]
      refine and_congr_right fun here => ⟨fun place => ⟨?_, place⟩, And.right⟩
      rintro rfl
      exact differs place.symm
  nodup := by
    intro bucket
    rw [bucketRemove, Function.update_apply]
    split
    · exact (indexes.nodup _).erase id
    · exact indexes.nodup bucket

/-- A record whose key changes is taken out before and put back after the change. -/
theorem move [DecidableEq Id] (indexes : Indexes bucketOf table key present) {id : Id}
    (here : present id) (key' : Id → Key)
    (others : ∀ other, other ≠ id → key' other = key other) :
    Indexes bucketOf
      (bucketInsert (bucketRemove table (bucketOf (key id)) id) (bucketOf (key' id)) id) key'
      present := by
  have taken : Indexes bucketOf (bucketRemove table (bucketOf (key id)) id) key'
      (fun other => present other ∧ other ≠ id) :=
    (indexes.remove id).congr (fun _ => Iff.rfl) fun other kept => others other kept.2
  refine (taken.insert fun still => still.2 rfl).congr (fun other => ?_) fun _ _ => rfl
  by_cases same : other = id
  · exact ⟨fun _ => .inr same, fun _ => same ▸ here⟩
  · exact ⟨fun still => .inl ⟨still, same⟩, fun still => (still.resolve_right same).1⟩

section Search

variable {wanted : Key} {p : Id → Bool} (indexes : Indexes bucketOf table key present)
  (selects : ∀ id, p id = true → key id = wanted)

include indexes

/-- A search of a bucket that succeeds. -/
theorem find?_eq_some {id : Id} (found : (table (bucketOf wanted)).find? p = some id) :
    present id ∧ p id = true :=
  ⟨((indexes.mem_iff _ id).mp (List.mem_of_find?_eq_some found)).1, List.find?_some found⟩

include selects

/-- A search of a bucket fails only where no present record is searched for. -/
theorem find?_eq_none_iff :
    (table (bucketOf wanted)).find? p = none ↔ ∀ id, present id → p id = false := by
  rw [List.find?_eq_none]
  constructor
  · intro none id here
    by_contra selected
    rw [Bool.not_eq_false] at selected
    have member : id ∈ table (bucketOf wanted) :=
      (indexes.mem_iff _ id).mpr ⟨here, by rw [selects id selected]⟩
    exact none id member selected
  · intro none id member selected
    rw [none id ((indexes.mem_iff _ id).mp member).1] at selected
    cases selected

/-- Where at most one present record is searched for, the bucket gives what a search of all
records gives. -/
theorem find?_eq_find? {all : List Id} (complete : ∀ id, id ∈ all ↔ present id)
    (unique : ∀ a b, present a → present b → p a = true → p b = true → a = b) :
    (table (bucketOf wanted)).find? p = all.find? p := by
  cases found : all.find? p with
  | none =>
      rw [indexes.find?_eq_none_iff selects]
      intro id here
      have missed := List.find?_eq_none.mp found id ((complete id).mpr here)
      rwa [Bool.not_eq_true] at missed
  | some id =>
      have here := (complete id).mp (List.mem_of_find?_eq_some found)
      have selected := List.find?_some found
      cases other : (table (bucketOf wanted)).find? p with
      | none =>
          rw [(indexes.find?_eq_none_iff selects).mp other id here] at selected
          cases selected
      | some id' =>
          obtain ⟨here', selected'⟩ := indexes.find?_eq_some other
          rw [unique id' id here' here selected' selected]

end Search

end Indexes

end Nookobo.Semantics
