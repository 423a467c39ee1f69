import Mathlib.Logic.Function.Basic
import Nookobo.Semantics.Raster

/-!
# Panes that cover the screen and give it back

A `Pane` is a rectangle of the screen. A program that shows something in it copies what is
there first, draws, and copies it back when it is done. A `Shelf` is the state of several
such programs on one screen: the frame, which panes are shown, and the copy each of them
took.

`Shelf.Restorable` says that the original screen is still all there: on the screen itself
outside the panes that are shown, and in their copies inside. Bringing a pane up and taking
one down keep it, in any order and however often, when no two panes overlap and each draws
inside its own.
-/

namespace Nookobo.Semantics

universe u v

variable {α : Type u}

/-- A rectangle of the screen. -/
structure Pane where
  left : Nat
  top : Nat
  width : Nat
  height : Nat
deriving DecidableEq, Repr

namespace Pane

/-- The pixel belongs to the pane. -/
def contains (pane : Pane) (row column : Nat) : Bool :=
  decide (pane.top ≤ row ∧ row < pane.top + pane.height) &&
    decide (pane.left ≤ column ∧ column < pane.left + pane.width)

/-- The rectangle, given by its corner and its size, lies in the pane. -/
def Holds (pane : Pane) (x y w h : Int) : Prop :=
  (pane.left ≤ x ∧ x + w ≤ pane.left + pane.width) ∧ pane.top ≤ y ∧ y + h ≤ pane.top + pane.height

instance (pane : Pane) (x y w h : Int) : Decidable (pane.Holds x y w h) :=
  inferInstanceAs (Decidable (_ ∧ _))

/-- The panes share no pixel. -/
def Apart (first second : Pane) : Prop :=
  ∀ row column, first.contains row column = true → second.contains row column = false

/-- Panes one above the other are apart. -/
theorem apart_of_above {first second : Pane} (above : first.top + first.height ≤ second.top) :
    first.Apart second := by
  intro row column inside
  simp only [contains, Bool.and_eq_true, Bool.and_eq_false_iff, decide_eq_true_eq,
    decide_eq_false_iff_not] at inside ⊢
  omega

/-- Panes are apart both ways round. -/
theorem Apart.symm {first second : Pane} (apart : first.Apart second) : second.Apart first := by
  intro row column inside
  cases shared : first.contains row column with
  | false => rfl
  | true =>
      rw [apart row column shared] at inside
      cases inside

/-- The copy of what the pane covers, by row and column within the pane. -/
def save (pane : Pane) (frame : Frame α) : Frame α := fun y x =>
  frame (pane.top + y) (pane.left + x)

/-- Copy `backup` back to where the pane is. -/
def restore (pane : Pane) (frame backup : Frame α) : Frame α := fun row column =>
  if pane.contains row column then backup (row - pane.top) (column - pane.left)
  else frame row column

/-- What was saved is found again at the place it came from. -/
theorem save_apply {pane : Pane} {row column : Nat} (inside : pane.contains row column = true)
    (frame : Frame α) :
    pane.save frame (row - pane.top) (column - pane.left) = frame row column := by
  simp only [contains, Bool.and_eq_true, decide_eq_true_eq] at inside
  obtain ⟨⟨below, -⟩, right, -⟩ := inside
  simp only [save, Nat.add_sub_cancel' below, Nat.add_sub_cancel' right]

end Pane

/-- A screen with panes on it. -/
structure Shelf (ι : Type v) (α : Type u) where
  frame : Frame α
  shown : ι → Bool
  backup : ι → Frame α

namespace Shelf

variable {ι : Type v} (pane : ι → Pane)

/-- Show a pane: copy the screen behind it unless it is shown already, and draw. -/
def bringUp [DecidableEq ι] (id : ι) (layer : Layer α) (shelf : Shelf ι α) : Shelf ι α where
  frame := shelf.frame.overlay layer
  shown := Function.update shelf.shown id true
  backup :=
    if shelf.shown id then shelf.backup
    else Function.update shelf.backup id ((pane id).save shelf.frame)

/-- Hide a pane: copy back what was behind it. -/
def takeDown [DecidableEq ι] (id : ι) (shelf : Shelf ι α) : Shelf ι α :=
  if shelf.shown id then
    { shelf with
      frame := (pane id).restore shelf.frame (shelf.backup id)
      shown := Function.update shelf.shown id false }
  else shelf

/-- No pane that is shown covers the pixel. -/
def Bare (shelf : Shelf ι α) (row column : Nat) : Prop :=
  ∀ id, shelf.shown id = true → (pane id).contains row column = false

/-- The original screen is all there, on the screen or behind the panes. -/
structure Restorable (original : Frame α) (shelf : Shelf ι α) : Prop where
  bare : ∀ row column, shelf.Bare pane row column →
    shelf.frame row column = original row column
  behind : ∀ id row column, shelf.shown id = true → (pane id).contains row column = true →
    shelf.backup id (row - (pane id).top) (column - (pane id).left) = original row column

variable {pane}

/-- With nothing shown the screen is the original. -/
theorem Restorable.frame_eq {original : Frame α} {shelf : Shelf ι α}
    (restorable : shelf.Restorable pane original) (hidden : ∀ id, shelf.shown id = false) :
    shelf.frame = original := by
  funext row column
  apply restorable.bare
  intro id shown
  rw [hidden id] at shown
  cases shown

/-- With one pane shown the screen outside it is the original. -/
theorem Restorable.frame_eq_outside {original : Frame α} {shelf : Shelf ι α}
    (restorable : shelf.Restorable pane original) {id : ι}
    (single : ∀ other, other ≠ id → shelf.shown other = false) {row column : Nat}
    (outside : (pane id).contains row column = false) :
    shelf.frame row column = original row column := by
  apply restorable.bare
  intro other shown
  by_cases same : other = id
  · rw [same]
    exact outside
  · rw [single other same] at shown
    cases shown

/-- With nothing shown, the screen itself can be restored. -/
theorem restorable_of_hidden {shelf : Shelf ι α} (hidden : ∀ id, shelf.shown id = false) :
    shelf.Restorable pane shelf.frame := by
  constructor
  · intro row column _
    rfl
  · intro id row column shown
    rw [hidden id] at shown
    cases shown

/-- A pixel of a pane that is not shown is bare: no other pane can cover it. -/
theorem bare_of_hidden (apart : ∀ first second, first ≠ second → (pane first).Apart (pane second))
    {shelf : Shelf ι α} {id : ι} (hidden : shelf.shown id = false)
    {row column : Nat} (inside : (pane id).contains row column = true) :
    shelf.Bare pane row column := by
  intro other shown
  have different : id ≠ other := by
    rintro rfl
    rw [hidden] at shown
    cases shown
  exact apart id other different row column inside

variable [DecidableEq ι]

/-- A pane that is brought up is shown. -/
theorem shown_bringUp_self (id : ι) (layer : Layer α) (shelf : Shelf ι α) :
    (shelf.bringUp pane id layer).shown id = true := Function.update_self ..

/-- Bringing up one pane shows or hides no other. -/
theorem shown_bringUp_of_ne {id other : ι} (different : other ≠ id) (layer : Layer α)
    (shelf : Shelf ι α) : (shelf.bringUp pane id layer).shown other = shelf.shown other :=
  Function.update_of_ne different ..

/-- Bringing up a pane, with a layer inside it, keeps the original restorable. -/
theorem Restorable.bringUp
    (apart : ∀ first second, first ≠ second → (pane first).Apart (pane second))
    {original : Frame α} {shelf : Shelf ι α} (restorable : shelf.Restorable pane original)
    {id : ι} {layer : Layer α} (within : layer.Within (pane id).contains) :
    (shelf.bringUp pane id layer).Restorable pane original := by
  constructor
  · intro row column bare
    have outside : (pane id).contains row column = false :=
      bare id (shown_bringUp_self id layer shelf)
    have before : shelf.Bare pane row column := by
      intro other shown
      apply bare other
      by_cases same : other = id
      · rw [same]
        exact shown_bringUp_self id layer shelf
      · exact (shown_bringUp_of_ne same layer shelf).trans shown
    exact (Frame.overlay_of_none (within row column outside)).trans
      (restorable.bare row column before)
  · intro other row column shown inside
    cases already : shelf.shown id with
    | true =>
        have before : shelf.shown other = true := by
          by_cases same : other = id
          · rw [same, already]
          · rwa [shown_bringUp_of_ne same] at shown
        simp only [Shelf.bringUp, already, if_true]
        exact restorable.behind other row column before inside
    | false =>
        simp only [Shelf.bringUp, already, Bool.false_eq_true, if_false]
        by_cases same : other = id
        · subst same
          rw [Function.update_self, Pane.save_apply inside]
          exact restorable.bare row column (bare_of_hidden apart already inside)
        · rw [shown_bringUp_of_ne same] at shown
          rw [Function.update_of_ne same]
          exact restorable.behind other row column shown inside

/-- Taking down a pane keeps the original restorable. -/
theorem Restorable.takeDown {original : Frame α} {shelf : Shelf ι α}
    (restorable : shelf.Restorable pane original) (id : ι) :
    (shelf.takeDown pane id).Restorable pane original := by
  unfold Shelf.takeDown
  split
  · next shown =>
      constructor
      · intro row column bare
        cases inside : (pane id).contains row column with
        | true =>
            simp only [Pane.restore, inside, if_true]
            exact restorable.behind id row column shown inside
        | false =>
            simp only [Pane.restore, inside, Bool.false_eq_true, if_false]
            apply restorable.bare
            intro other up
            by_cases same : other = id
            · rw [same]
              exact inside
            · exact bare other ((Function.update_of_ne same false shelf.shown).trans up)
      · intro other row column up inside
        have different : other ≠ id := by
          rintro rfl
          simp only [Function.update_self, Bool.false_eq_true] at up
        have before : shelf.shown other = true :=
          (Function.update_of_ne different false shelf.shown).symm.trans up
        exact restorable.behind other row column before inside
  · exact restorable

end Shelf

end Nookobo.Semantics
