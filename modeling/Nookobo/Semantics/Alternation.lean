import Mathlib.Data.List.Induction

/-!
# Alternating streams

`Alternates first second values` says that a stream reads `first, second,
first, second, ...`. `expected` is the value that would continue it, so a
stream can be extended one event or one batch at a time.
-/

namespace Nookobo.Semantics

variable {α : Type*}

/-- The stream is `first, second, first, ...`, cut anywhere. -/
def Alternates (first second : α) : List α → Prop
  | [] => True
  | value :: rest => value = first ∧ Alternates second first rest

/-- The value that continues the stream. -/
def expected (first second : α) : List α → α
  | [] => first
  | _ :: rest => expected second first rest

instance Alternates.decidable [DecidableEq α] (first second : α) :
    ∀ values, Decidable (Alternates first second values)
  | [] => inferInstanceAs (Decidable True)
  | _ :: rest =>
      have := Alternates.decidable second first rest
      inferInstanceAs (Decidable (_ ∧ _))

/-- Nothing alternates. -/
@[simp] theorem alternates_nil (first second : α) : Alternates first second [] := trivial

/-- An alternating list begins with the first value and goes on with the second. -/
@[simp] theorem alternates_cons (first second value : α) (rest : List α) :
    Alternates first second (value :: rest) ↔
      value = first ∧ Alternates second first rest := Iff.rfl

/-- At the start the first value is expected. -/
@[simp] theorem expected_nil (first second : α) : expected first second [] = first := rfl

/-- After a value the other one is expected. -/
@[simp] theorem expected_cons (first second value : α) (rest : List α) :
    expected first second (value :: rest) = expected second first rest := rfl

/-- From the two starts, opposite values are expected. -/
theorem expected_eq_or (first second : α) (values : List α) :
    expected first second values = first ∧ expected second first values = second ∨
      expected first second values = second ∧ expected second first values = first := by
  induction values generalizing first second with
  | nil => exact .inl ⟨rfl, rfl⟩
  | cons _ rest ih =>
      rcases ih second first with h | h
      · exact .inr h
      · exact .inl h

/-- The two values expected after a stream and after its mirror image. -/
theorem expected_append (first second : α) (before after : List α) :
    expected first second (before ++ after) =
      expected (expected first second before) (expected second first before) after := by
  induction before generalizing first second with
  | nil => rfl
  | cons _ rest ih => exact ih second first

/-- A stream extended by a batch alternates exactly when the batch picks up
where the stream left off. -/
theorem alternates_append (first second : α) (before after : List α) :
    Alternates first second (before ++ after) ↔
      Alternates first second before ∧
        Alternates (expected first second before) (expected second first before) after := by
  induction before generalizing first second with
  | nil => simp
  | cons value rest ih => simp [ih, and_assoc]

/-- In an alternating stream the last value tells which one is expected next. -/
theorem getLast?_eq_some_first_iff {first second : α} (distinct : first ≠ second)
    {values : List α} (alternates : Alternates first second values) :
    values.getLast? = some first ↔ expected first second values = second := by
  induction values using List.reverseRecOn generalizing first second with
  | nil => simp [distinct]
  | append_singleton before value _ =>
      have last := ((alternates_append first second before [value]).mp alternates).2.1
      simp only [List.getLast?_append, List.getLast?_singleton, Option.some_or,
        Option.some.injEq, expected_append, expected_cons, expected_nil]
      rcases expected_eq_or first second before with ⟨same, mirror⟩ | ⟨same, mirror⟩
      · simp [last, same, mirror]
      · simp only [last, same, mirror]
        exact eq_comm

end Nookobo.Semantics
