import Nookobo.Semantics.Pane

/-!
# Drawing and submitting

A panel of electronic paper shows what stands in the frame only where a region is submitted to
its controller. An `Output` is one of the two things a program does to such a panel; a
`SubmissionLog` keeps, for every region that is submitted, what has been drawn since the last one.

`SubmissionLog.Valid` asks that every region lies on the panel and covers what had been drawn.
`Output.Settles` is the same read off a list of outputs that ends with nothing left to be
submitted; lists that settle can be put one behind the other.
-/

namespace Nookobo.Semantics

universe u

variable {α : Type u}

/-- A layer that is drawn, or a region that is submitted. -/
inductive Output (α : Type u) where
  | draw (layer : Layer α)
  | submit (region : Pane)

/-- The region lies on a panel of that size. -/
def Pane.OnPanel (width height : Nat) (region : Pane) : Prop :=
  region.left + region.width ≤ width ∧ region.top + region.height ≤ height

instance (width height : Nat) (region : Pane) : Decidable (region.OnPanel width height) :=
  inferInstanceAs (Decidable (_ ∧ _))

/-- What has been drawn since the last submission, and each region with what had been drawn. -/
structure SubmissionLog (α : Type u) where
  pending : List (Layer α) := []
  submitted : List (Pane × List (Layer α)) := []

namespace Output

/-- A submission leaves the frame as it is. -/
def paint (frame : Frame α) : Output α → Frame α
  | .draw layer => frame.overlay layer
  | .submit _ => frame

/-- Every region lies on the panel and covers what has been drawn since the one before it;
nothing drawn is left in the end. -/
def Settles (width height : Nat) : List (Layer α) → List (Output α) → Prop
  | pending, [] => pending = []
  | pending, .draw layer :: rest => Settles width height (pending ++ [layer]) rest
  | pending, .submit region :: rest =>
      (region.OnPanel width height ∧ ∀ layer ∈ pending, layer.Within region.contains) ∧
        Settles width height [] rest

variable {width height : Nat} {pending : List (Layer α)}

/-- Two lists of outputs settle when the second settles by itself. -/
theorem settles_append {first second : List (Output α)} (early : Settles width height pending first)
    (late : Settles width height [] second) : Settles width height pending (first ++ second) := by
  induction first generalizing pending with
  | nil =>
      rw [show pending = [] from early]
      exact late
  | cons output rest ih =>
      cases output with
      | draw layer => exact ih early
      | submit region => exact ⟨early.1, ih early.2⟩

/-- A drawing with a region around it. -/
theorem settles_pair {layer : Layer α} {region : Pane} (onPanel : region.OnPanel width height)
    (within : layer.Within region.contains) :
    Settles width height [] [.draw layer, .submit region] :=
  ⟨⟨onPanel, fun _ member => List.mem_singleton.mp member ▸ within⟩, rfl⟩

end Output

namespace SubmissionLog

variable {width height : Nat} {log : SubmissionLog α}

/-- One more output: drawn layers wait for the next submission. -/
def record (log : SubmissionLog α) : Output α → SubmissionLog α
  | .draw layer => { log with pending := log.pending ++ [layer] }
  | .submit region => ⟨[], log.submitted ++ [(region, log.pending)]⟩

/-- Some more outputs. -/
def recordAll (outputs : List (Output α)) (log : SubmissionLog α) : SubmissionLog α :=
  outputs.foldl record log

/-- Every region that was submitted lies on the panel and covers what had been drawn. -/
def Valid (width height : Nat) (log : SubmissionLog α) : Prop :=
  ∀ entry ∈ log.submitted, entry.1.OnPanel width height ∧
    ∀ layer ∈ entry.2, layer.Within entry.1.contains

/-- An empty log is valid. -/
theorem valid_empty : ({} : SubmissionLog α).Valid width height := fun _ member => by cases member

/-- Outputs that settle keep a log valid and leave nothing to be submitted. -/
theorem Valid.recordAll (valid : log.Valid width height) {outputs : List (Output α)}
    (settles : Output.Settles width height log.pending outputs) :
    (log.recordAll outputs).Valid width height ∧ (log.recordAll outputs).pending = [] := by
  induction outputs generalizing log with
  | nil => exact ⟨valid, settles⟩
  | cons output rest ih =>
      cases output with
      | draw layer =>
          have drawn : (log.record (.draw layer)).Valid width height := valid
          exact ih drawn settles
      | submit region =>
          have entered : (log.record (.submit region)).Valid width height := by
            intro entry member
            rcases List.mem_append.mp member with earlier | last
            · exact valid entry earlier
            · rw [List.mem_singleton.mp last]
              exact settles.1
          exact ih entered settles.2

/-- What was submitted stays in the log. -/
theorem mem_recordAll {entry : Pane × List (Layer α)} (member : entry ∈ log.submitted)
    (outputs : List (Output α)) : entry ∈ (log.recordAll outputs).submitted := by
  induction outputs generalizing log with
  | nil => exact member
  | cons output rest ih =>
      cases output with
      | draw layer =>
          have kept : entry ∈ (log.record (.draw layer)).submitted := member
          exact ih kept
      | submit region => exact ih (List.mem_append_left _ member)

/-- No log is valid once a region off the panel has been submitted. -/
theorem not_valid_recordAll {region : Pane} (off : ¬ region.OnPanel width height)
    {outputs : List (Output α)} (submits : .submit region ∈ outputs) :
    ¬ (log.recordAll outputs).Valid width height := by
  intro valid
  induction outputs generalizing log with
  | nil => cases submits
  | cons output rest ih =>
      rcases List.mem_cons.mp submits with same | later
      · subst same
        have entered : (region, log.pending) ∈ (log.record (.submit region)).submitted :=
          List.mem_append_right _ List.mem_cons_self
        exact off (valid _ (mem_recordAll entered rest)).1
      · exact ih later valid

end SubmissionLog

end Nookobo.Semantics
