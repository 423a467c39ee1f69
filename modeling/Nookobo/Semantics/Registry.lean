import Mathlib.Logic.Function.Basic

/-!
# Numbered registries

A registry gives numbers to objects, each number once. It is a partial map from
numbers together with the next number to give, and no number from there on is in
use. `Evolves` is what any sequence of the operations can do to a registry: it
never turns a number that was given to an object over to another.
-/

namespace Nookobo.Semantics

universe u

variable {Object : Type u}

/-- The objects by their numbers, and the next number. -/
structure Registry (Object : Type u) where
  next : Nat
  object : Nat → Option Object
  unused : ∀ number, next ≤ number → object number = none

namespace Registry

/-- No object yet. -/
def empty (next : Nat) : Registry Object := ⟨next, fun _ => none, fun _ _ => rfl⟩

/-- A new object gets the next number. -/
def issue (registry : Registry Object) (object : Object) : Registry Object where
  next := registry.next + 1
  object := Function.update registry.object registry.next (some object)
  unused := by
    intro number above
    rw [Function.update_of_ne (by omega)]
    exact registry.unused number (by omega)

/-- The objects change, and some are withdrawn. -/
def revise (registry : Registry Object) (f : Nat → Object → Option Object) : Registry Object where
  next := registry.next
  object := fun number => (registry.object number).bind (f number)
  unused := by
    intro number above
    rw [registry.unused number above]
    rfl

/-- No two numbers are those of objects with a property. -/
def AtMostOne (registry : Registry Object) (p : Object → Prop) : Prop :=
  ∀ (first second : Nat) (one two : Object), registry.object first = some one →
    registry.object second = some two → p one → p two → first = second

/-- A number that was given stays with its object, changed as `keeps` allows, or is withdrawn. -/
structure Evolves (keeps : Object → Object → Prop) (before after : Registry Object) : Prop where
  next_le : before.next ≤ after.next
  old : ∀ number, number < before.next → ∀ late, after.object number = some late →
    ∃ early, before.object number = some early ∧ keeps early late

section Evolution

variable {keeps : Object → Object → Prop} {registry between after : Registry Object}

/-- A registry evolves into itself. -/
theorem Evolves.refl (reflexive : ∀ object, keeps object object) (registry : Registry Object) :
    Evolves keeps registry registry where
  next_le := Nat.le_refl _
  old := fun _ _ late here => ⟨late, here, reflexive late⟩

/-- A registry evolves in two steps. -/
theorem Evolves.trans (transitive : ∀ {a b c}, keeps a b → keeps b c → keeps a c)
    (first : Evolves keeps registry between) (second : Evolves keeps between after) :
    Evolves keeps registry after where
  next_le := Nat.le_trans first.next_le second.next_le
  old := by
    intro number given late here
    obtain ⟨middle, here, kept⟩ :=
      second.old number (Nat.lt_of_lt_of_le given first.next_le) late here
    obtain ⟨early, here, kept'⟩ := first.old number given middle here
    exact ⟨early, here, transitive kept' kept⟩

/-- A new object leaves the others alone. -/
theorem evolves_issue (reflexive : ∀ object, keeps object object) (registry : Registry Object)
    (object : Object) : Evolves keeps registry (registry.issue object) where
  next_le := Nat.le_succ _
  old := by
    intro number given late here
    change Function.update registry.object registry.next (some object) number = some late at here
    rw [Function.update_of_ne (Nat.ne_of_lt given)] at here
    exact ⟨late, here, reflexive late⟩

/-- A revision that keeps what it leaves evolves the registry. -/
theorem evolves_revise (registry : Registry Object) {f : Nat → Object → Option Object}
    (kept : ∀ number early late, f number early = some late → keeps early late) :
    Evolves keeps registry (registry.revise f) where
  next_le := Nat.le_refl _
  old := by
    intro number _ late here
    obtain ⟨early, there, becomes⟩ := Option.bind_eq_some_iff.mp here
    exact ⟨early, there, kept number early late becomes⟩

/-- A number that was given and is withdrawn is never given again. -/
theorem Evolves.withdrawn (evolves : Evolves keeps registry after) {number : Nat}
    (given : number < registry.next) (withdrawn : registry.object number = none) :
    after.object number = none := by
  cases here : after.object number with
  | none => rfl
  | some late =>
      obtain ⟨early, there, -⟩ := evolves.old number given late here
      rw [withdrawn] at there
      cases there

end Evolution

end Registry

end Nookobo.Semantics
