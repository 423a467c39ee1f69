import Mathlib.Logic.Basic
import Mathlib.Data.List.Basic

/-!
# Runs of a labelled machine

A `Machine` has one initial state and one transition for each label, so a list
of labels is a complete schedule: the environment's choices (clock readings,
arriving events, which process moves next) are part of the label. `Always`
states a property of every state a schedule visits, `StepsMeet` a condition on
every step it takes, judged in the state before the step.

`always_iff_stepsMeet` is the exactness rule used for conditions whose
violation shows at once; `stepsMeet_or_spoiled` is the rule for damage that shows
only at the end.
-/

namespace Nookobo.Semantics

universe u v

/-- A transition system in which the label determines the transition. -/
structure Machine (State : Type u) (Label : Type v) where
  initial : State
  step : State → Label → State

namespace Machine

variable {State : Type u} {Label : Type v} (machine : Machine State Label)

/-- The state a schedule ends in. -/
def run (state : State) (labels : List Label) : State :=
  labels.foldl machine.step state

/-- Every step of the schedule meets `condition` in the state it starts from. -/
def StepsMeet (condition : State → Label → Prop) : State → List Label → Prop
  | _, [] => True
  | state, label :: rest =>
      condition state label ∧ StepsMeet condition (machine.step state label) rest

/-- `property` holds in every state the schedule visits, both ends included. -/
def Always (property : State → Prop) : State → List Label → Prop
  | state, [] => property state
  | state, label :: rest =>
      property state ∧ Always property (machine.step state label) rest

instance StepsMeet.decidable (condition : State → Label → Prop)
    [∀ state label, Decidable (condition state label)] :
    ∀ state labels, Decidable (machine.StepsMeet condition state labels)
  | _, [] => inferInstanceAs (Decidable True)
  | state, label :: rest =>
      have := StepsMeet.decidable condition (machine.step state label) rest
      inferInstanceAs (Decidable (_ ∧ _))

instance Always.decidable (property : State → Prop) [∀ state, Decidable (property state)] :
    ∀ state labels, Decidable (machine.Always property state labels)
  | state, [] => inferInstanceAs (Decidable (property state))
  | state, label :: rest =>
      have := Always.decidable property (machine.step state label) rest
      inferInstanceAs (Decidable (_ ∧ _))

variable {machine}
variable {property : State → Prop} {allowed condition : State → Label → Prop}

/-- No label, no step. -/
@[simp] theorem run_nil (state : State) : machine.run state [] = state := rfl

/-- The first label is the first step. -/
@[simp] theorem run_cons (state : State) (label : Label) (rest : List Label) :
    machine.run state (label :: rest) = machine.run (machine.step state label) rest := rfl

/-- Two lists of labels are run one after the other. -/
@[simp] theorem run_append (state : State) (first second : List Label) :
    machine.run state (first ++ second) = machine.run (machine.run state first) second :=
  List.foldl_append

/-- An invariant kept by the allowed steps holds in the state a schedule of them
ends in. -/
theorem run_of_invariant (invariant : State → Prop)
    (keeps : ∀ state label, invariant state → allowed state label →
      invariant (machine.step state label))
    {state : State} {labels : List Label} (start : invariant state)
    (legal : machine.StepsMeet allowed state labels) :
    invariant (machine.run state labels) := by
  induction labels generalizing state with
  | nil => exact start
  | cons label rest ih => exact ih (keeps state label start legal.1) legal.2

/-- An invariant kept by every step gives what it implies in every state a
schedule visits. -/
theorem always_of_invariant (invariant : State → Prop)
    (sound : ∀ state, invariant state → property state)
    (keeps : ∀ state label, invariant state → invariant (machine.step state label))
    {state : State} (start : invariant state) (labels : List Label) :
    machine.Always property state labels := by
  induction labels generalizing state with
  | nil => exact sound state start
  | cons label rest ih => exact ⟨sound state start, ih (keeps state label start)⟩

/-- The same for an invariant that only the allowed steps keep. -/
theorem always_of_allowed (invariant : State → Prop)
    (sound : ∀ state, invariant state → property state)
    (keeps : ∀ state label, invariant state → allowed state label →
      invariant (machine.step state label))
    {state : State} {labels : List Label} (start : invariant state)
    (legal : machine.StepsMeet allowed state labels) :
    machine.Always property state labels := by
  induction labels generalizing state with
  | nil => exact sound state start
  | cons label rest ih =>
      exact ⟨sound state start, ih (keeps state label start legal.1) legal.2⟩

/-- What always holds holds in the end. -/
theorem Always.run {state : State} {labels : List Label}
    (always : machine.Always property state labels) : property (machine.run state labels) := by
  induction labels generalizing state with
  | nil => exact always
  | cons label rest ih => exact ih always.2

/-- A condition on the labels alone. -/
theorem StepsMeet.of_labels {admissible : Label → Prop} {state : State} {labels : List Label}
    (each : ∀ label ∈ labels, admissible label) :
    machine.StepsMeet (fun _ label => admissible label) state labels := by
  induction labels generalizing state with
  | nil => trivial
  | cons label rest ih =>
      obtain ⟨first, later⟩ := List.forall_mem_cons.mp each
      exact ⟨first, ih later⟩

/-- Steps that meet two conditions meet both at once. -/
theorem StepsMeet.and {state : State} {labels : List Label}
    (first : machine.StepsMeet allowed state labels)
    (second : machine.StepsMeet condition state labels) :
    machine.StepsMeet (fun state label => allowed state label ∧ condition state label) state
      labels := by
  induction labels generalizing state with
  | nil => trivial
  | cons label rest ih => exact ⟨⟨first.1, second.1⟩, ih first.2 second.2⟩

/-- Steps that meet a condition meet a weaker one. -/
theorem StepsMeet.mono {state : State} {labels : List Label}
    (meets : machine.StepsMeet allowed state labels)
    (weaker : ∀ state label, allowed state label → condition state label) :
    machine.StepsMeet condition state labels := by
  induction labels generalizing state with
  | nil => trivial
  | cons label rest ih => exact ⟨weaker state label meets.1, ih meets.2⟩

/-- Conditions that say the same are met by the same steps. -/
theorem stepsMeet_congr (same : ∀ state label, allowed state label ↔ condition state label)
    {state : State} {labels : List Label} :
    machine.StepsMeet allowed state labels ↔ machine.StepsMeet condition state labels := by
  induction labels generalizing state with
  | nil => exact Iff.rfl
  | cons label rest ih => exact and_congr (same state label) ih

/-- The same where the two agree only in states that an invariant holds of, and the invariant
is kept by the allowed steps. -/
theorem stepsMeet_iff (invariant : State → Prop) {demand : State → Label → Prop}
    (keeps : ∀ state label, invariant state → allowed state label →
      invariant (machine.step state label))
    (same : ∀ state label, invariant state → allowed state label →
      (demand state label ↔ condition state label))
    {state : State} {labels : List Label} (start : invariant state)
    (legal : machine.StepsMeet allowed state labels) :
    machine.StepsMeet demand state labels ↔ machine.StepsMeet condition state labels := by
  induction labels generalizing state with
  | nil => exact Iff.rfl
  | cons label rest ih =>
      exact and_congr (same state label start legal.1)
        (ih (keeps state label start legal.1) legal.2)

/-- A condition that holds anywhere is met by any steps. -/
theorem StepsMeet.of_forall (all : ∀ state label, condition state label)
    {state : State} {labels : List Label} : machine.StepsMeet condition state labels := by
  induction labels generalizing state with
  | nil => trivial
  | cons label rest ih => exact ⟨all state label, ih⟩

/-- A schedule meets a condition when its first part does and the rest does from where that
ends. -/
theorem stepsMeet_append {state : State} {first second : List Label} :
    machine.StepsMeet condition state (first ++ second) ↔
      machine.StepsMeet condition state first ∧
        machine.StepsMeet condition (machine.run state first) second := by
  induction first generalizing state with
  | nil => exact ⟨fun later => ⟨trivial, later⟩, fun both => both.2⟩
  | cons label rest ih =>
      rw [List.cons_append, run_cons]
      simp only [StepsMeet, ih, and_assoc]

/-- Exactness: when the invariant together with the condition is kept by every
allowed step, and a step that misses the condition breaks the property at once,
the schedules along which the property always holds are exactly those whose
steps all meet the condition. -/
theorem always_iff_stepsMeet (invariant : State → Prop)
    (sound : ∀ state, invariant state → property state)
    (keeps : ∀ state label, invariant state → allowed state label →
      condition state label → invariant (machine.step state label))
    (breaks : ∀ state label, invariant state → allowed state label →
      ¬ condition state label → ¬ property (machine.step state label))
    {state : State} {labels : List Label} (start : invariant state)
    (legal : machine.StepsMeet allowed state labels) :
    machine.Always property state labels ↔ machine.StepsMeet condition state labels := by
  induction labels generalizing state with
  | nil => exact ⟨fun _ => trivial, fun _ => sound state start⟩
  | cons label rest ih =>
      constructor
      · rintro ⟨_, later⟩
        by_cases meets : condition state label
        · exact ⟨meets, (ih (keeps state label start legal.1 meets) legal.2).mp later⟩
        · -- the next visited state already contradicts `later`
          have first : property (machine.step state label) := by
            cases rest with
            | nil => exact later
            | cons _ _ => exact later.1
          exact absurd first (breaks state label start legal.1 meets)
      · rintro ⟨meets, later⟩
        exact ⟨sound state start,
          (ih (keeps state label start legal.1 meets) legal.2).mpr later⟩

/-- The same where every step is allowed. -/
theorem always_iff_stepsMeet_of_all (invariant : State → Prop)
    (sound : ∀ state, invariant state → property state)
    (keeps : ∀ state label, invariant state → condition state label →
      invariant (machine.step state label))
    (breaks : ∀ state label, invariant state → ¬ condition state label →
      ¬ property (machine.step state label))
    {state : State} (start : invariant state) (labels : List Label) :
    machine.Always property state labels ↔ machine.StepsMeet condition state labels := by
  have anything : machine.StepsMeet (fun _ _ => True) state labels :=
    StepsMeet.of_forall fun _ _ => trivial
  refine always_iff_stepsMeet invariant sound ?_ ?_ start anything
  · intro state label holds _ meets
    exact keeps state label holds meets
  · intro state label holds _ misses
    exact breaks state label holds misses

/-- The rule for damage that shows only at the end: a step that misses the
condition spoils the state, and what is spoiled stays spoiled. -/
theorem stepsMeet_or_spoiled (invariant spoiled : State → Prop)
    (keeps : ∀ state label, invariant state → condition state label →
      invariant (machine.step state label))
    (spoils : ∀ state label, invariant state → ¬ condition state label →
      spoiled (machine.step state label))
    (stays : ∀ state label, spoiled state → spoiled (machine.step state label))
    {state : State} (labels : List Label) (start : invariant state) :
    machine.StepsMeet condition state labels ∨ spoiled (machine.run state labels) := by
  induction labels generalizing state with
  | nil => exact .inl trivial
  | cons label rest ih =>
      by_cases meets : condition state label
      · rcases ih (keeps state label start meets) with later | damaged
        · exact .inl ⟨meets, later⟩
        · exact .inr damaged
      · have anything : machine.StepsMeet (fun _ _ => True) (machine.step state label) rest :=
          StepsMeet.of_forall fun _ _ => trivial
        have damaged := spoils state label start meets
        refine .inr ?_
        rw [run_cons]
        exact run_of_invariant spoiled (fun state label bad _ => stays state label bad)
          damaged anything

/-- Exactness for such damage: where each step spoils the state exactly when it misses the
condition, a run ends unspoiled exactly when all its steps meet the condition. -/
theorem not_spoiled_iff_stepsMeet (invariant spoiled : State → Prop)
    (keeps : ∀ state label, invariant state → invariant (machine.step state label))
    (spoils_iff : ∀ state label, invariant state →
      (spoiled (machine.step state label) ↔ spoiled state ∨ ¬ condition state label))
    {state : State} (labels : List Label) (start : invariant state) (clean : ¬ spoiled state) :
    ¬ spoiled (machine.run state labels) ↔ machine.StepsMeet condition state labels := by
  have stays : ∀ (labels : List Label) (state : State), invariant state → spoiled state →
      spoiled (machine.run state labels) := by
    intro labels
    induction labels with
    | nil => exact fun state _ bad => bad
    | cons label rest ih =>
        intro state holds bad
        exact ih _ (keeps state label holds) ((spoils_iff state label holds).mpr (.inl bad))
  induction labels generalizing state with
  | nil => exact ⟨fun _ => trivial, fun _ => clean⟩
  | cons label rest ih =>
      have decides := spoils_iff state label start
      by_cases meets : condition state label
      · have stillClean : ¬ spoiled (machine.step state label) := by
          rw [decides]
          exact not_or.mpr ⟨clean, not_not.mpr meets⟩
        have later := ih (keeps state label start) stillClean
        exact later.trans ⟨fun rest => ⟨meets, rest⟩, fun all => all.2⟩
      · have bad := stays rest _ (keeps state label start) (decides.mpr (.inr meets))
        exact ⟨fun unspoiled => absurd bad unspoiled, fun all => absurd all.1 meets⟩

end Machine

end Nookobo.Semantics
