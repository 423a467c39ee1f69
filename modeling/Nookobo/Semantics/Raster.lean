import Mathlib.Data.List.Basic
import Mathlib.Order.Basic

/-!
# Frames and layers

A `Frame` gives every pixel a colour; a `Layer` is a partial picture, the trace
of drawing that only ever covers. Laying one over a frame is what a sequence of
opaque drawing calls does, so a drawing routine can be modelled as the layer it
produces, and two routines in a row as one layer over the other.

`Layer.Within` bounds the pixels a layer can touch, `Layer.Below` its rows; a frame is
unchanged outside.
-/

namespace Nookobo.Semantics

universe u

variable {α : Type u}

/-- A colour for every row and column. -/
abbrev Frame (α : Type u) := Nat → Nat → α

/-- A colour for the pixels that are drawn. -/
abbrev Layer (α : Type u) := Nat → Nat → Option α

namespace Layer

/-- Nothing drawn. -/
def blank : Layer α := fun _ _ => none

/-- Draw `top` after `bottom`. -/
def onTop (top bottom : Layer α) : Layer α := fun row column =>
  (top row column).or (bottom row column)

/-- Draw the layers of a list in order. -/
def stack (layers : List (Layer α)) : Layer α :=
  layers.foldl (fun bottom top => top.onTop bottom) blank

/-- Layers put one on the other, over a bottom one. -/
theorem foldl_onTop (layers : List (Layer α)) (bottom : Layer α) :
    layers.foldl (fun bottom top => top.onTop bottom) bottom = (stack layers).onTop bottom := by
  unfold stack
  induction layers generalizing bottom with
  | nil => rfl
  | cons layer rest ih =>
      rw [List.foldl_cons, ih, List.foldl_cons, ih (layer.onTop blank)]
      funext row column
      simp only [onTop, blank, Option.or_none, Option.or_assoc]

/-- The later part of a list lies over the earlier. -/
theorem stack_append (first second : List (Layer α)) :
    stack (first ++ second) = (stack second).onTop (stack first) := by
  rw [← foldl_onTop]
  exact List.foldl_append

/-- The first layer of a stack is the lowest. -/
theorem stack_cons (layer : Layer α) (rest : List (Layer α)) (row column : Nat) :
    stack (layer :: rest) row column = (stack rest row column).or (layer row column) := by
  rw [← List.singleton_append, stack_append]
  exact congrArg (Option.or _) Option.or_none

/-- Where no layer draws, the stack draws nothing. -/
theorem stack_of_none {layers : List (Layer α)} {row column : Nat}
    (clear : ∀ layer ∈ layers, layer row column = none) : stack layers row column = none := by
  induction layers with
  | nil => rfl
  | cons layer rest ih =>
      rw [List.forall_mem_cons] at clear
      rw [stack_cons, ih clear.2, clear.1]
      rfl

/-- Where all layers that draw a pixel agree, the order does not matter. -/
theorem stack_of_agree {layers : List (Layer α)} {row column : Nat} {value : α}
    (agree : ∀ layer ∈ layers, layer row column = none ∨ layer row column = some value)
    (drawn : ∃ layer ∈ layers, layer row column = some value) :
    stack layers row column = some value := by
  induction layers with
  | nil =>
      obtain ⟨_, member, _⟩ := drawn
      cases member
  | cons layer rest ih =>
      rw [List.forall_mem_cons] at agree
      rw [stack_cons]
      by_cases later : ∃ other ∈ rest, other row column = some value
      · rw [ih agree.2 later]
        rfl
      · obtain ⟨other, member, draws⟩ := drawn
        have clear : ∀ other ∈ rest, other row column = none := fun other inRest =>
          (agree.2 other inRest).resolve_right fun draws => later ⟨other, inRest, draws⟩
        rw [stack_of_none clear]
        rcases List.mem_cons.mp member with rfl | inRest
        · exact draws
        · exact absurd ⟨other, inRest, draws⟩ later

/-- The layer draws only pixels of `region`. -/
def Within (region : Nat → Nat → Bool) (layer : Layer α) : Prop :=
  ∀ row column, region row column = false → layer row column = none

/-- A stack of layers inside a region is inside it. -/
theorem Within.stack {region : Nat → Nat → Bool} {layers : List (Layer α)}
    (each : ∀ layer ∈ layers, layer.Within region) : (stack layers).Within region := by
  intro row column outside
  apply stack_of_none
  intro layer member
  exact each layer member row column outside

/-- The layer draws no row at or beyond `limit`. -/
def Below (limit : Nat) (layer : Layer α) : Prop :=
  ∀ row column, limit ≤ row → layer row column = none

/-- Above a limit is inside the rows above it. -/
theorem below_iff_within (limit : Nat) (layer : Layer α) :
    layer.Below limit ↔ layer.Within fun row _ => decide (row < limit) := by
  constructor
  · intro below row column outside
    exact below row column (Nat.le_of_not_lt (of_decide_eq_false outside))
  · intro within row column beyond
    exact within row column (decide_eq_false (Nat.not_lt_of_ge beyond))

/-- Nothing is drawn above any limit. -/
theorem below_blank (limit : Nat) : (blank : Layer α).Below limit :=
  fun _ _ _ => rfl

/-- A stack of layers above a limit is above it. -/
theorem Below.stack {limit : Nat} {layers : List (Layer α)}
    (each : ∀ layer ∈ layers, layer.Below limit) : (stack layers).Below limit := by
  rw [below_iff_within]
  apply Within.stack
  intro layer member
  exact (below_iff_within limit layer).mp (each layer member)

end Layer

namespace Frame

/-- The frame after the layer has been drawn on it. -/
def overlay (frame : Frame α) (layer : Layer α) : Frame α := fun row column =>
  (layer row column).getD (frame row column)

/-- Drawing twice is drawing the later layer over the earlier one. -/
theorem overlay_overlay (frame : Frame α) (bottom top : Layer α) :
    (frame.overlay bottom).overlay top = frame.overlay (top.onTop bottom) := by
  funext row column
  cases drawn : top row column with
  | none => simp [overlay, Layer.onTop, drawn]
  | some colour => simp [overlay, Layer.onTop, drawn]

/-- Replace whole rows by those of another frame. -/
def copyRows (frame source : Frame α) (copied : Nat → Bool) : Frame α := fun row column =>
  if copied row then source row column else frame row column

/-- Where a layer draws nothing, the frame shows through. -/
theorem overlay_of_none {frame : Frame α} {layer : Layer α} {row column : Nat}
    (clear : layer row column = none) : frame.overlay layer row column = frame row column := by
  simp [overlay, clear]

/-- Below its limit a layer leaves the frame alone. -/
theorem overlay_below {limit : Nat} {layer : Layer α} (above : layer.Below limit)
    (frame : Frame α) {row : Nat} (beyond : limit ≤ row) (column : Nat) :
    frame.overlay layer row column = frame row column :=
  overlay_of_none (above row column beyond)

end Frame

end Nookobo.Semantics
