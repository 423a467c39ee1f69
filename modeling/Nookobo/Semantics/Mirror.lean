import Mathlib.Logic.Function.Basic

/-!
# A mirror that is kept by a queue of changes

Things come and go, each coming or going is put into a queue, and a mirror takes
the changes up one after the other, at any later time. What it finds out about a
thing is not what was so at the change but what is so when it looks. `Follows`
is what keeps the mirror right: the last change about a thing in the queue tells
whether it is there, and without one the mirror does.
-/

namespace Nookobo.Semantics

universe u

variable {Key : Type u} [DecidableEq Key]

/-- What the last of the changes about a thing makes of it. -/
def outcome (key : Key) : List (Key × Bool) → Option Bool
  | [] => none
  | (other, comes) :: rest =>
      match outcome key rest with
      | some last => some last
      | none => if other = key then some comes else none

/-- One more change decides about its own key. -/
theorem outcome_append (key other : Key) (comes : Bool) (changes : List (Key × Bool)) :
    outcome key (changes ++ [(other, comes)]) =
      if other = key then some comes else outcome key changes := by
  induction changes with
  | nil => rfl
  | cons change rest ih =>
      rw [List.cons_append, outcome, ih, outcome]
      by_cases isKey : other = key
      · rw [if_pos isKey, if_pos isKey]
      · rw [if_neg isKey, if_neg isKey]

/-- No change decides about a key exactly when none is about it. -/
theorem outcome_eq_none_iff {key : Key} {changes : List (Key × Bool)} :
    outcome key changes = none ↔ ∀ change ∈ changes, change.1 ≠ key := by
  induction changes with
  | nil => exact iff_of_true rfl fun change member => absurd member List.not_mem_nil
  | cons change rest ih =>
      rw [outcome, List.forall_mem_cons, ← ih]
      cases outcome key rest with
      | some last => simp
      | none => simp

/-- The mirror is right about the things that no change in the queue is about, as far as they
are its concern. -/
structure Follows (concern : Key → Prop) (present : Key → Bool) (queue : List (Key × Bool))
    (mirror : Key → Prop) : Prop where
  last : ∀ key comes, outcome key queue = some comes → present key = comes
  settled : ∀ key, concern key → outcome key queue = none → (mirror key ↔ present key = true)

variable {concern mirror mirror' : Key → Prop} {present : Key → Bool} {queue : List (Key × Bool)}

/-- A change is put into the queue. -/
theorem Follows.announce (follows : Follows concern present queue mirror) {key : Key} {comes : Bool}
    {present' : Key → Bool} (now : present' key = comes)
    (others : ∀ other, other ≠ key → present' other = present other)
    (same : ∀ other, other ≠ key → (mirror' other ↔ mirror other)) :
    Follows concern present' (queue ++ [(key, comes)]) mirror' := by
  constructor
  · intro other comes' isLast
    rw [outcome_append] at isLast
    split at isLast
    · next isKey => exact isKey ▸ now.trans (Option.some.inj isLast)
    · next differs => exact (others other (Ne.symm differs)).trans (follows.last other _ isLast)
  · intro other cares silent
    rw [outcome_append] at silent
    split at silent
    · cases silent
    · next differs =>
      rw [same other (Ne.symm differs), others other (Ne.symm differs)]
      exact follows.settled other cares silent

/-- The first change is taken up. The mirror need only be right about its thing if no other change
is about it. -/
theorem Follows.take {key : Key} {comes : Bool}
    (follows : Follows concern present ((key, comes) :: queue) mirror)
    (same : ∀ other, other ≠ key → concern other → (mirror' other ↔ mirror other))
    (looked : present key = comes → (mirror' key ↔ comes = true)) :
    Follows concern present queue mirror' := by
  constructor
  · intro other comes' isLast
    refine follows.last other comes' ?_
    rw [outcome, isLast]
  · intro other cares silent
    by_cases isKey : other = key
    · subst isKey
      have now : present other = comes := follows.last other comes (by
        rw [outcome, silent]
        exact if_pos rfl)
      rw [looked now, now]
    · rw [same other isKey cares]
      refine follows.settled other cares ?_
      rw [outcome, silent]
      exact if_neg (Ne.symm isKey)

/-- The first change is dropped. Unless the thing is none of the mirror's concern or another change
is about it, the mirror has to be right about it already. -/
theorem Follows.skip {key : Key} {comes : Bool}
    (follows : Follows concern present ((key, comes) :: queue) mirror)
    (dispensable : concern key → outcome key queue = none → (mirror key ↔ present key = true)) :
    Follows concern present queue mirror := by
  constructor
  · intro other comes' isLast
    refine follows.last other comes' ?_
    rw [outcome, isLast]
  · intro other cares silent
    by_cases isKey : other = key
    · subst isKey
      exact dispensable cares silent
    · refine follows.settled other cares ?_
      rw [outcome, silent]
      exact if_neg (Ne.symm isKey)

/-- Nothing is announced: the mirror may only be set right about one thing. -/
theorem Follows.still (follows : Follows concern present queue mirror) {key : Key}
    (same : ∀ other, other ≠ key → (mirror' other ↔ mirror other))
    (right : (mirror' key ↔ mirror key) ∨ present key = true ∧ mirror' key) :
    Follows concern present queue mirror' where
  last := follows.last
  settled := fun other cares silent => by
    by_cases isKey : other = key
    · subst isKey
      rcases right with unchanged | ⟨there, shown⟩
      · exact unchanged.trans (follows.settled other cares silent)
      · exact iff_of_true shown there
    · exact (same other isKey).trans (follows.settled other cares silent)

/-- Two mirrors with the same keys follow alike. -/
theorem Follows.congr (follows : Follows concern present queue mirror)
    (same : ∀ key, mirror' key ↔ mirror key) : Follows concern present queue mirror' where
  last := follows.last
  settled := fun key cares silent => (same key).trans (follows.settled key cares silent)

end Nookobo.Semantics
