import Nookobo.Shim.Video

/-!
# What `SDL_UpdateRect` sends to the panel

The rectangle of an update is clipped with signed starts, unsigned extents and sums that
wrap, then rounded outwards to blocks of eight pixels. `Span.Clipped` is what is left of a
start and an extent afterwards, whatever they were, and `Rect.damage` the rectangle that is
handed to `epdc_refresh_area`, if any.

`damage_refreshed` says that the regions are proper and complete. `invisible_damage` says
that a rectangle off the panel goes unnoticed unless it lies to the left of it or above it:
there the extent has already wrapped when it is compared with zero.
-/

namespace Nookobo.Shim

open Nookobo.Semantics

/-! ## Regions -/

namespace Update

/-- The region lies on the panel. -/
def OnPanel (update : Update) : Prop :=
  0 ≤ update.left ∧ update.left + update.width ≤ panelWidth ∧
    0 ≤ update.top ∧ update.top + update.height ≤ panelHeight

/-- Left and top are multiples of eight, and so are right and bottom away from the edge of the
panel. -/
def Aligned (update : Update) : Prop :=
  update.left % 8 = 0 ∧ update.top % 8 = 0 ∧
    ((update.left + update.width) % 8 = 0 ∨ update.left + update.width = panelWidth) ∧
    ((update.top + update.height) % 8 = 0 ∨ update.top + update.height = panelHeight)

/-- The pixel lies in the region. -/
def Covers (update : Update) (row column : Int) : Prop :=
  (update.left ≤ column ∧ column < update.left + update.width) ∧
    update.top ≤ row ∧ row < update.top + update.height

end Update

/-! ## Clipping -/

/-- No 32-bit number lies below the least one. -/
theorem low_toInt (value : Int32) : -0x80000000 ≤ value.toInt := by
  have low := Int32.le_toInt value
  omega

namespace Span

/-- A range as it leaves the clipping to `limit`; it may be empty and even turned round, but it
starts and stops on the panel, so that no later sum overflows. -/
structure Clipped (limit : Nat) (span : Span) : Prop where
  start_nonneg : 0 ≤ span.start
  start_lt : span.start < limit
  stop_nonneg : 0 ≤ span.stop
  stop_le : span.stop ≤ limit

variable {limit : Nat} {span : Span}

/-- A range cut at zero does not start before it. -/
theorem fromZero_start_nonneg (span : Span) : 0 ≤ span.fromZero.start := by
  unfold fromZero
  split
  · exact Int.le_refl 0
  · next positive => exact Int.not_lt.mp positive

/-- Both cuts leave a range on the panel, even where the sum has wrapped. -/
theorem clipped_cutAt (small : limit ≤ 0x7FFFFFFF) (nonneg : 0 ≤ span.start)
    (less : span.start < limit) : (span.cutAt limit).Clipped limit := by
  unfold cutAt
  split
  · refine ⟨nonneg, less, ?_, ?_⟩
    · simp only [stop, Int.bmod]
      omega
    · simp only [stop, Int.bmod]
      omega
  · refine ⟨nonneg, less, ?_, ?_⟩
    · simp only [stop, Int.bmod]
      omega
    · simp only [stop, Int.bmod]
      omega

/-- The cut at the far edge leaves the start alone. -/
theorem cutAt_start (limit : Nat) (span : Span) : (span.cutAt limit).start = span.start := by
  unfold cutAt
  split <;> rfl

/-- An extent of zero leaves no place to cover. -/
theorem not_covers_of_extent_eq_zero (limit : Nat) {place : Int} (nonneg : 0 ≤ span.start)
    (empty : span.extent = 0)
    (inside : (span.cutAt limit).start ≤ place ∧ place < (span.cutAt limit).stop) : False := by
  unfold cutAt at inside
  split at inside
  · simp only [stop, Int.bmod] at inside
    omega
  · simp only [stop, empty, Int.bmod] at inside
    omega

/-- Nothing that lies on the panel is lost from a range of ordinary size. -/
theorem cutAt_fromZero_covers (small : limit ≤ 0x7FFFFFFF) (low : -0x80000000 ≤ span.start)
    (ordinary : span.extent < 0x80000000) {place : Int} (onPanel : 0 ≤ place ∧ place < limit)
    (inside : span.start ≤ place ∧ place < span.start + span.extent) :
    (span.fromZero.cutAt limit).start ≤ place ∧ place < (span.fromZero.cutAt limit).stop := by
  obtain ⟨nonneg, less⟩ := onPanel
  obtain ⟨after, before⟩ := inside
  unfold fromZero cutAt
  split
  · split
    · simp only [stop, Int.bmod]
      omega
    · simp only [stop, Int.bmod]
      omega
  · split
    · simp only [stop, Int.bmod]
      omega
    · simp only [stop, Int.bmod]
      omega

end Span

/-! ## The rectangle to refresh -/

namespace Rect

/-- The arguments of a call of `SDL_UpdateRect`; width and height become unsigned. -/
def ofInt32 (x y w h : Int32) : Rect := ⟨x, y, w.toUInt32, h.toUInt32⟩

/-- The columns and rows that `SDL_UpdateRect` hands to `epdc_refresh_area`. -/
def damage (rect : Rect) (oskActive : Bool) : Option (Span × Span) :=
  match rect.clip with
  | none => none
  | some (columns, rows) =>
      if oskActive && decide (rows.stop > oskY) then
        if rows.start ≥ oskY then none else some (columns, ⟨rows.start, (oskY - rows.start).toNat⟩)
      else some (columns, rows)

/-- The columns that were asked for, from zero on. -/
def columns (rect : Rect) : Span :=
  (if rect.isWhole then (⟨0, panelWidth⟩ : Span) else ⟨rect.x.toInt, rect.w.toNat⟩).fromZero

/-- The rows that were asked for, from zero on. -/
def rows (rect : Rect) : Span :=
  (if rect.isWhole then (⟨0, panelHeight⟩ : Span) else ⟨rect.y.toInt, rect.h.toNat⟩).fromZero

/-- The columns of a rectangle that is not the whole panel. -/
theorem columns_eq {rect : Rect} (ordinary : rect.isWhole = false) :
    rect.columns = (⟨rect.x.toInt, rect.w.toNat⟩ : Span).fromZero := by
  simp [columns, ordinary]

/-- The rows of a rectangle that is not the whole panel. -/
theorem rows_eq {rect : Rect} (ordinary : rect.isWhole = false) :
    rect.rows = (⟨rect.y.toInt, rect.h.toNat⟩ : Span).fromZero := by
  simp [rows, ordinary]

/-- Nothing is refreshed. -/
def Dismissed (rect : Rect) : Prop :=
  panelWidth ≤ rect.columns.start ∨ panelHeight ≤ rect.rows.start ∨ rect.columns.extent = 0 ∨
    rect.rows.extent = 0

instance (rect : Rect) : Decidable rect.Dismissed := inferInstanceAs (Decidable (_ ∨ _))

/-- The clipping of `SDL_UpdateRect`: nothing, or both ranges cut to the panel. -/
theorem clip_eq (rect : Rect) :
    rect.clip = if rect.Dismissed then none
      else some (rect.columns.cutAt panelWidth, rect.rows.cutAt panelHeight) := rfl

/-- What is left by the clipping lies on the panel. -/
theorem clip_clipped {rect : Rect} {columns rows : Span}
    (clip : rect.clip = some (columns, rows)) :
    columns.Clipped panelWidth ∧ rows.Clipped panelHeight := by
  rw [clip_eq] at clip
  split at clip
  · cases clip
  · next visible =>
    simp only [Dismissed, not_or, Int.not_le] at visible
    cases clip
    exact ⟨Span.clipped_cutAt (by decide) (Span.fromZero_start_nonneg _) visible.1,
      Span.clipped_cutAt (by decide) (Span.fromZero_start_nonneg _) visible.2.1⟩

/-- Rows that are cut at the keyboard stop there. -/
theorem stop_above_osk {start : Int} (nonneg : 0 ≤ start) (above : start < oskY) :
    (⟨start, (oskY - start).toNat⟩ : Span).stop = oskY := by
  simp only [oskY] at above ⊢
  simp only [Span.stop, Int.bmod]
  omega

/-- What is refreshed stays on the panel and, with the keyboard up, above the keyboard. -/
theorem damage_clipped {rect : Rect} {oskActive : Bool} {columns rows : Span}
    (damage : rect.damage oskActive = some (columns, rows)) :
    columns.Clipped panelWidth ∧ rows.Clipped panelHeight ∧
      (oskActive = true → rows.stop ≤ oskY) := by
  unfold Rect.damage at damage
  split at damage
  · cases damage
  · next wide high clip =>
    obtain ⟨across, down⟩ := clip_clipped clip
    split at damage
    · split at damage
      · cases damage
      · next above =>
        cases damage
        have stop := stop_above_osk down.start_nonneg (Int.not_le.mp above)
        refine ⟨across, ⟨down.start_nonneg, down.start_lt, ?_, ?_⟩, fun _ => ?_⟩
        · rw [stop]
          decide
        · rw [stop]
          decide
        · exact Int.le_of_eq stop
    · next clear =>
      cases damage
      refine ⟨across, down, fun active => ?_⟩
      rw [active, Bool.true_and, decide_eq_true_eq, Int.not_lt] at clear
      exact clear

/-- A pixel of an ordinary rectangle that is on the panel and not under the keyboard is
refreshed. -/
theorem damage_covers {rect : Rect} {oskActive : Bool} (ordinary : rect.isWhole = false)
    (wide : rect.w.toNat < 0x80000000) (high : rect.h.toNat < 0x80000000) {row column : Nat}
    (inside : rect.contains row column = true) (seen : oskActive = true → row < oskY) :
    ∃ columns rows, rect.damage oskActive = some (columns, rows) ∧
      (columns.start ≤ column ∧ column < columns.stop) ∧ rows.start ≤ row ∧ row < rows.stop := by
  simp only [Rect.contains, ordinary, Bool.false_eq_true, if_false, inRect, Bool.and_eq_true,
    decide_eq_true_eq] at inside
  obtain ⟨⟨top, bottom, onRows⟩, left, right, onColumns⟩ := inside
  have across : (rect.columns.cutAt panelWidth).start ≤ column ∧
      (column : Int) < (rect.columns.cutAt panelWidth).stop := by
    rw [columns_eq ordinary]
    exact Span.cutAt_fromZero_covers (by decide) (low_toInt rect.x) wide
      ⟨Int.natCast_nonneg column, Int.ofNat_lt.mpr onColumns⟩ ⟨left, right⟩
  have down : (rect.rows.cutAt panelHeight).start ≤ row ∧
      (row : Int) < (rect.rows.cutAt panelHeight).stop := by
    rw [rows_eq ordinary]
    exact Span.cutAt_fromZero_covers (by decide) (low_toInt rect.y) high
      ⟨Int.natCast_nonneg row, Int.ofNat_lt.mpr onRows⟩ ⟨top, bottom⟩
  have visible : ¬ rect.Dismissed := by
    have before := across.1
    have above := down.1
    rw [Span.cutAt_start] at before above
    rintro (beyond | beyond | empty | empty)
    · omega
    · omega
    · exact Span.not_covers_of_extent_eq_zero panelWidth (Span.fromZero_start_nonneg _) empty across
    · exact Span.not_covers_of_extent_eq_zero panelHeight (Span.fromZero_start_nonneg _) empty down
  unfold Rect.damage
  rw [clip_eq, if_neg visible]
  dsimp only
  split
  · next reaches =>
    rw [Bool.and_eq_true, decide_eq_true_eq] at reaches
    have above := seen reaches.1
    have nonneg : 0 ≤ (rect.rows.cutAt panelHeight).start := by
      rw [Span.cutAt_start]
      exact Span.fromZero_start_nonneg _
    have starts : (rect.rows.cutAt panelHeight).start < oskY := by omega
    rw [if_neg (Int.not_le.mpr starts)]
    refine ⟨_, _, rfl, across, down.1, ?_⟩
    rw [stop_above_osk nonneg starts]
    exact Int.ofNat_lt.mpr above
  · exact ⟨_, _, rfl, across, down⟩

end Rect

/-! ## The regions -/

/-- A region that `epdc_refresh_area` submits for a start on the panel. -/
theorem epdcRefreshArea_proper {mode : Refresh} {left top width height : Int} {update : Update}
    (nonneg : 0 ≤ left ∧ 0 ≤ top)
    (submitted : epdcRefreshArea mode left top width height = some update) :
    update.OnPanel ∧ update.Aligned ∧
      (top + height ≤ oskY → update.top + update.height ≤ oskY) := by
  unfold epdcRefreshArea at submitted
  dsimp only at submitted
  split at submitted
  · cases submitted
  · next proper =>
    cases submitted
    simp only [Update.OnPanel, Update.Aligned, alignDown, panelWidth, panelHeight, oskY] at *
    omega

/-- It contains what it was asked for, as far as it is on the panel. -/
theorem epdcRefreshArea_covers (mode : Refresh) {left top width height row column : Int}
    (onPanel : row < panelHeight ∧ column < panelWidth)
    (across : left ≤ column ∧ column < left + width)
    (down : top ≤ row ∧ row < top + height) :
    ∃ update, epdcRefreshArea mode left top width height = some update ∧
      update.Covers row column := by
  have proper : ¬ (min (alignDown (left + width + 7)) panelWidth ≤ alignDown left ∨
      min (alignDown (top + height + 7)) panelHeight ≤ alignDown top) := by
    simp only [alignDown, panelWidth, panelHeight] at *
    omega
  unfold epdcRefreshArea
  dsimp only
  rw [if_neg proper]
  refine ⟨_, rfl, ?_⟩
  simp only [Update.Covers, alignDown, panelWidth, panelHeight] at *
  omega

namespace State

variable (font : Font)

/-- The waveform of the refresh: full for the first big frame. -/
def refreshMode (columns rows : Span) (state : State) : Refresh :=
  if state.firstFullFrame && decide (1000 ≤ columns.extent ∧ 1000 ≤ rows.extent) then .full
  else .gray

/-- What the call submits. -/
def submitted (rect : Rect) (state : State) : List Update :=
  match rect.damage state.oskActive with
  | none => []
  | some (columns, rows) =>
      (epdcRefreshArea (state.refreshMode columns rows) columns.start rows.start
        (Int.bmod columns.extent 0x100000000) (Int.bmod rows.extent 0x100000000)).toList

/-- Refreshing the page submits its region, if there is one. -/
theorem refreshPage_updates (columns rows : Span) (state : State) :
    (state.refreshPage columns rows).updates = state.updates ++
      (epdcRefreshArea (state.refreshMode columns rows) columns.start rows.start
        (Int.bmod columns.extent 0x100000000) (Int.bmod rows.extent 0x100000000)).toList := by
  unfold refreshPage refreshMode
  dsimp only
  split <;> rfl

/-- What a refresh looks at. -/
def panelView (state : State) : Bool × Bool × List Update :=
  (state.oskActive, state.firstFullFrame, state.updates)

/-- Redrawing the address bar submits nothing. -/
theorem assertUrlBar_panelView (columns rows : Span) (state : State) :
    (state.assertUrlBar font columns rows).panelView = state.panelView := by
  unfold assertUrlBar
  split <;> rfl

/-- What `SDL_UpdateRect` submits for a rectangle. -/
theorem updates_updateRect (rect : Rect) (state : State) :
    (state.updateRect font rect).updates = state.updates ++ state.submitted rect := by
  unfold updateRect submitted Rect.damage
  cases rect.clip with
  | none => exact (List.append_nil _).symm
  | some spans =>
      obtain ⟨columns, rows⟩ := spans
      have view := assertUrlBar_panelView font columns rows state
      simp only [panelView, Prod.mk.injEq] at view
      obtain ⟨active, first, updates⟩ := view
      dsimp only
      rw [active]
      split
      · have mode : ∀ rest : Span,
            ((state.assertUrlBar font columns rows).saveUnderOsk font rows).refreshMode columns
              rest = state.refreshMode columns rest := by
          intro rest
          unfold refreshMode
          rw [← first]
          rfl
        split
        · exact updates.trans (List.append_nil _).symm
        · rw [refreshPage_updates, mode]
          exact congrArg (· ++ _) updates
      · have mode : (state.assertUrlBar font columns rows).refreshMode columns rows =
            state.refreshMode columns rows := by
          unfold refreshMode
          rw [first]
        rw [refreshPage_updates, updates, mode]

end State

/-! ## Proper and complete -/

/-- A positive size keeps its value as an unsigned one. -/
theorem toUInt32_of_pos {size : Int32} (positive : 0 < size) :
    (size.toUInt32.toNat : Int) = size.toInt ∧ 0 < size.toInt ∧ size.toInt < 0x80000000 := by
  have above : 0 < size.toInt := Int32.lt_iff_toInt_lt.mp positive
  have same := Int32.toNat_toUInt32_of_le (Int32.le_of_lt positive)
  have clamp : size.toNatClampNeg = size.toInt.toNat := rfl
  have below := Int32.toInt_lt size
  rw [same, clamp]
  exact ⟨Int.toNat_of_nonneg (Int.le_of_lt above), above, below⟩

/-- A rectangle with positive width and height is not the whole panel. -/
theorem Rect.isWhole_ofInt32 (x y : Int32) {w h : Int32} (wide : 0 < w) (high : 0 < h) :
    (Rect.ofInt32 x y w h).isWhole = false := by
  have width := toUInt32_of_pos wide
  have height := toUInt32_of_pos high
  have someWidth : w.toUInt32 ≠ 0 := by
    intro zero
    rw [zero] at width
    exact absurd width.1 (Int.ne_of_lt width.2.1)
  have someHeight : h.toUInt32 ≠ 0 := by
    intro zero
    rw [zero] at height
    exact absurd height.1 (Int.ne_of_lt height.2.1)
  simp [isWhole, ofInt32, someWidth, someHeight]

/-- A region on the panel is submitted, aligned and above the keyboard when that is up; and what
was asked for is covered as far as it can be seen. -/
theorem damage_refreshed (font : Font) (state : State) (x y w h : Int32) :
    ∃ regions,
      (state.updateRect font (.ofInt32 x y w h)).updates = state.updates ++ regions ∧
      (∀ region ∈ regions, region.OnPanel ∧ region.Aligned ∧
        (state.oskActive = true → region.top + region.height ≤ oskY)) ∧
      (0 < w → 0 < h → ∀ row column, inRect x.toInt y.toInt w.toInt h.toInt row column = true →
        (state.oskActive = true → row < oskY) →
        ∃ region ∈ regions, region.Covers row column) := by
  refine ⟨_, State.updates_updateRect font _ state, ?_, ?_⟩
  · intro region member
    unfold State.submitted at member
    split at member
    · cases member
    · next columns rows damage =>
      obtain ⟨across, down, above⟩ := Rect.damage_clipped damage
      obtain ⟨onPanel, aligned, limit⟩ :=
        epdcRefreshArea_proper ⟨across.start_nonneg, down.start_nonneg⟩
          (Option.mem_toList.mp member)
      exact ⟨onPanel, aligned, fun active => limit (above active)⟩
  · intro wide high row column inside seen
    obtain ⟨width, widePos, wideLt⟩ := toUInt32_of_pos wide
    obtain ⟨height, highPos, highLt⟩ := toUInt32_of_pos high
    have ordinary := Rect.isWhole_ofInt32 x y wide high
    have contains : (Rect.ofInt32 x y w h).contains row column = true := by
      unfold Rect.contains
      rw [ordinary, if_neg (by decide)]
      change inRect x.toInt y.toInt w.toUInt32.toNat h.toUInt32.toNat row column = true
      rw [width, height]
      exact inside
    have onPanel : (row : Int) < panelHeight ∧ (column : Int) < panelWidth := by
      simp only [inRect, Bool.and_eq_true, decide_eq_true_eq] at inside
      omega
    obtain ⟨columns, rows, damage, across, down⟩ := Rect.damage_covers ordinary
      (by change w.toUInt32.toNat < _; omega) (by change h.toUInt32.toNat < _; omega) contains seen
    obtain ⟨region, submits, covers⟩ := epdcRefreshArea_covers (state.refreshMode columns rows)
      onPanel across down
    refine ⟨region, ?_, covers⟩
    unfold State.submitted
    rw [damage]
    exact Option.mem_toList.mpr submits

/-! ## Rectangles off the panel -/

namespace Span

variable {limit : Nat} {span : Span}

/-- An ordinary extent is read back as it is. -/
theorem stop_of_lt (ordinary : span.extent < 0x80000000) :
    span.stop = span.start + span.extent := by
  simp only [stop, Int.bmod]
  omega

/-- What is left of an ordinary range is empty when it ends where the panel begins, and only then:
one that ends before that wraps, and is cut to the whole panel. -/
theorem cutAt_fromZero_nonempty (small : limit ≤ 0x7FFFFFFF) (low : -0x80000000 ≤ span.start)
    (ordinary : 0 < span.extent ∧ span.extent < 0x80000000)
    (seen : (0 : Int) < limit ∧ span.start < limit) (apart : span.start + span.extent ≠ 0) :
    (span.fromZero.cutAt limit).start < (span.fromZero.cutAt limit).stop := by
  unfold fromZero cutAt
  split
  · -- the wrapped extent, and which half of the unsigned range it lies in
    have wrapped : ((((span.extent + span.start) % 0x100000000).toNat : Nat) : Int) =
        (span.extent + span.start) % 0x100000000 := Int.toNat_of_nonneg (by omega)
    have halves : 0 < (span.extent + span.start) % 0x100000000 ∧
        (span.extent + span.start) % 0x100000000 < 0x100000000 ∧
        ((span.extent + span.start) % 0x100000000 < 0x80000000 ∨
          (limit : Int) < (span.extent + span.start) % 0x100000000) := by omega
    generalize ((span.extent + span.start) % 0x100000000).toNat = extent at wrapped ⊢
    rw [← wrapped] at halves
    dsimp only
    split
    · rw [stop_of_lt (by dsimp only; omega)]
      dsimp only
      omega
    · rw [stop_of_lt (by dsimp only; omega)]
      dsimp only
      omega
  · split
    · rw [stop_of_lt (by dsimp only; omega)]
      dsimp only
      omega
    · rw [stop_of_lt ordinary.2]
      omega

/-- Cutting at zero moves no start beyond a positive bound. -/
theorem le_fromZero_start_iff {bound : Int} (positive : 0 < bound) :
    bound ≤ span.fromZero.start ↔ bound ≤ span.start := by
  unfold fromZero
  split
  · dsimp only
    omega
  · exact Iff.rfl

/-- Cutting at zero leaves nothing exactly of a range that ends there. -/
theorem fromZero_extent_eq_zero_iff (low : -0x80000000 ≤ span.start)
    (ordinary : 0 < span.extent ∧ span.extent < 0x80000000) :
    span.fromZero.extent = 0 ↔ span.start + span.extent = 0 := by
  unfold fromZero
  split
  · dsimp only
    omega
  · omega

end Span

namespace Rect

/-- Nothing is refreshed for a rectangle that is dismissed or hidden by the keyboard, and only
then. -/
theorem damage_eq_none_iff (rect : Rect) (oskActive : Bool) :
    rect.damage oskActive = none ↔ rect.Dismissed ∨
      (oskActive = true ∧ oskY < (rect.rows.cutAt panelHeight).stop ∧ oskY ≤ rect.rows.start) := by
  unfold Rect.damage
  rw [clip_eq]
  by_cases dismissed : rect.Dismissed
  · rw [if_pos dismissed]
    exact ⟨fun _ => .inl dismissed, fun _ => rfl⟩
  · rw [if_neg dismissed]
    simp only [dismissed, false_or, Bool.and_eq_true, decide_eq_true_eq, Span.cutAt_start]
    constructor
    · intro none
      split at none
      · next reaches =>
        split at none
        · next hidden => exact ⟨reaches.1, reaches.2, hidden⟩
        · cases none
      · cases none
    · rintro ⟨active, reaches, hidden⟩
      rw [if_pos ⟨active, reaches⟩, if_pos hidden]

/-- The rectangle lies to the right of the panel or below it, ends exactly at the left or upper
edge, or starts behind the keyboard. -/
def Noticed (rect : Rect) (oskActive : Bool) : Prop :=
  panelWidth ≤ rect.x.toInt ∨ panelHeight ≤ rect.y.toInt ∨ rect.x.toInt + rect.w.toNat = 0 ∨
    rect.y.toInt + rect.h.toNat = 0 ∨ (oskActive = true ∧ oskY ≤ rect.y.toInt)

/-- Width and height are those of a call with positive arguments. -/
structure Ordinary (rect : Rect) : Prop where
  whole : rect.isWhole = false
  wide : 0 < rect.w.toNat ∧ rect.w.toNat < 0x80000000
  high : 0 < rect.h.toNat ∧ rect.h.toNat < 0x80000000

/-- Something is left of an ordinary rectangle that is not dismissed. -/
theorem Ordinary.nonempty {rect : Rect} (ordinary : rect.Ordinary) (visible : ¬ rect.Dismissed) :
    (rect.columns.cutAt panelWidth).start < (rect.columns.cutAt panelWidth).stop ∧
      (rect.rows.cutAt panelHeight).start < (rect.rows.cutAt panelHeight).stop := by
  simp only [Dismissed, not_or, columns_eq ordinary.whole, rows_eq ordinary.whole] at visible ⊢
  obtain ⟨left, above, someWidth, someHeight⟩ := visible
  rw [Span.le_fromZero_start_iff (by decide), Int.not_le] at left above
  rw [Span.fromZero_extent_eq_zero_iff (low_toInt _) ordinary.wide] at someWidth
  rw [Span.fromZero_extent_eq_zero_iff (low_toInt _) ordinary.high] at someHeight
  exact ⟨Span.cutAt_fromZero_nonempty (by decide) (low_toInt _) ordinary.wide
      ⟨by decide, left⟩ someWidth,
    Span.cutAt_fromZero_nonempty (by decide) (low_toInt _) ordinary.high
      ⟨by decide, above⟩ someHeight⟩

/-- When a rectangle of ordinary size has no damage, by its own numbers. -/
theorem Ordinary.damage_eq_none_iff {rect : Rect} (ordinary : rect.Ordinary) (oskActive : Bool) :
    rect.damage oskActive = none ↔ rect.Noticed oskActive := by
  have dismissed : rect.Dismissed ↔ panelWidth ≤ rect.x.toInt ∨ panelHeight ≤ rect.y.toInt ∨
      rect.x.toInt + rect.w.toNat = 0 ∨ rect.y.toInt + rect.h.toNat = 0 := by
    rw [Dismissed, columns_eq ordinary.whole, rows_eq ordinary.whole,
      Span.le_fromZero_start_iff (by decide), Span.le_fromZero_start_iff (by decide),
      Span.fromZero_extent_eq_zero_iff (low_toInt _) ordinary.wide,
      Span.fromZero_extent_eq_zero_iff (low_toInt _) ordinary.high]
  have behind : oskY ≤ rect.rows.start ↔ oskY ≤ rect.y.toInt := by
    rw [rows_eq ordinary.whole]
    exact Span.le_fromZero_start_iff (by decide)
  rw [Rect.damage_eq_none_iff, behind, Noticed]
  constructor
  · rintro (off | ⟨active, _, hidden⟩)
    · rcases dismissed.mp off with right | below | left | above
      · exact .inl right
      · exact .inr (.inl below)
      · exact .inr (.inr (.inl left))
      · exact .inr (.inr (.inr (.inl above)))
    · exact .inr (.inr (.inr (.inr ⟨active, hidden⟩)))
  · rintro (right | below | left | above | ⟨active, hidden⟩)
    · exact .inl (dismissed.mpr (.inl right))
    · exact .inl (dismissed.mpr (.inr (.inl below)))
    · exact .inl (dismissed.mpr (.inr (.inr (.inl left))))
    · exact .inl (dismissed.mpr (.inr (.inr (.inr above))))
    · by_cases off : rect.Dismissed
      · exact .inl off
      · -- what is left of the rectangle reaches further down than it starts
        have down := (ordinary.nonempty off).2
        rw [Span.cutAt_start] at down
        exact .inr ⟨active, Int.lt_of_le_of_lt (behind.mpr hidden) down, hidden⟩

/-- What is refreshed is not empty. -/
theorem Ordinary.damage_nonempty {rect : Rect} (ordinary : rect.Ordinary) {oskActive : Bool}
    {columns rows : Span} (damage : rect.damage oskActive = some (columns, rows)) :
    columns.start < columns.stop ∧ rows.start < rows.stop := by
  unfold Rect.damage at damage
  rw [clip_eq] at damage
  by_cases dismissed : rect.Dismissed
  · rw [if_pos dismissed] at damage
    cases damage
  · obtain ⟨across, down⟩ := ordinary.nonempty dismissed
    rw [if_neg dismissed] at damage
    dsimp only at damage
    split at damage
    · split at damage
      · cases damage
      · next above =>
        cases damage
        have nonneg : 0 ≤ (rect.rows.cutAt panelHeight).start := by
          rw [Span.cutAt_start]
          exact Span.fromZero_start_nonneg _
        refine ⟨across, ?_⟩
        rw [stop_above_osk nonneg (Int.not_le.mp above)]
        exact Int.not_le.mp above
    · cases damage
      exact ⟨across, down⟩

end Rect

namespace State

variable (font : Font)

/-- A rectangle without damage submits nothing. -/
theorem panelView_updateRect_of_none {rect : Rect} {state : State}
    (none : rect.damage state.oskActive = none) :
    (state.updateRect font rect).panelView = state.panelView := by
  unfold updateRect
  unfold Rect.damage at none
  cases clip : rect.clip with
  | none => rfl
  | some spans =>
      obtain ⟨columns, rows⟩ := spans
      have view := assertUrlBar_panelView font columns rows state
      have active : (state.assertUrlBar font columns rows).oskActive = state.oskActive :=
        congrArg Prod.fst view
      rw [clip] at none
      dsimp only at none ⊢
      rw [active]
      split at none
      · next reaches =>
        rw [if_pos reaches]
        split at none
        · next hidden =>
          rw [if_pos hidden]
          exact view
        · cases none
      · cases none

end State

/-- A call refreshes nothing, and leaves the flash of the first full frame to come, exactly when
its rectangle is noticed. -/
theorem unrefreshed_iff (font : Font) (state : State) {rect : Rect} (ordinary : rect.Ordinary) :
    (state.updateRect font rect).updates = state.updates ∧
        (state.updateRect font rect).firstFullFrame = state.firstFullFrame ↔
      rect.Noticed state.oskActive := by
  rw [← ordinary.damage_eq_none_iff]
  constructor
  · rintro ⟨updates, _⟩
    cases damage : rect.damage state.oskActive with
    | none => rfl
    | some spans =>
        obtain ⟨columns, rows⟩ := spans
        obtain ⟨across, down⟩ := ordinary.damage_nonempty damage
        obtain ⟨inColumns, inRows, _⟩ := Rect.damage_clipped damage
        -- the first pixel of what is left is refreshed
        have onPanel : rows.start < panelHeight ∧ columns.start < panelWidth :=
          ⟨inRows.start_lt, inColumns.start_lt⟩
        obtain ⟨region, submits, _⟩ := epdcRefreshArea_covers (state.refreshMode columns rows)
          onPanel ⟨Int.le_refl _, across⟩ ⟨Int.le_refl _, down⟩
        have submitted : state.submitted rect = [region] := by
          unfold State.submitted
          rw [damage]
          exact congrArg Option.toList submits
        rw [State.updates_updateRect, submitted, List.append_right_eq_self] at updates
        cases updates
  · intro none
    have view := State.panelView_updateRect_of_none font none
    simp only [State.panelView, Prod.mk.injEq] at view
    exact ⟨view.2.2, view.2.1⟩

/-- A call with positive arguments is ordinary. -/
theorem Rect.ordinary_ofInt32 (x y : Int32) {w h : Int32} (wide : 0 < w) (high : 0 < h) :
    (Rect.ofInt32 x y w h).Ordinary := by
  obtain ⟨width, widePos, wideLt⟩ := toUInt32_of_pos wide
  obtain ⟨height, highPos, highLt⟩ := toUInt32_of_pos high
  refine ⟨isWhole_ofInt32 x y wide high, ?_, ?_⟩
  · change 0 < w.toUInt32.toNat ∧ w.toUInt32.toNat < _
    omega
  · change 0 < h.toUInt32.toNat ∧ h.toUInt32.toNat < _
    omega

/-- A rectangle that shows on no pixel of the panel submits nothing and does not use up the flash
of the first full frame when it lies to the right of the panel or below it, ends exactly at its
left or upper edge, or starts in the rows of the keyboard. Any other is refreshed, over the whole
width or height. -/
theorem invisible_damage (font : Font) (state : State) (x y w h : Int32) (wide : 0 < w)
    (high : 0 < h) :
    ((∀ row column, inRect x.toInt y.toInt w.toInt h.toInt row column = false) →
        (state.updateRect font (.ofInt32 x y w h)).updates = state.updates ∧
          (state.updateRect font (.ofInt32 x y w h)).firstFullFrame = state.firstFullFrame) ↔
      (∃ row column, inRect x.toInt y.toInt w.toInt h.toInt row column = true) ∨
        panelWidth ≤ x.toInt ∨ panelHeight ≤ y.toInt ∨ x.toInt + w.toInt = 0 ∨
        y.toInt + h.toInt = 0 ∨ (state.oskActive = true ∧ oskY ≤ y.toInt) := by
  have exact := unrefreshed_iff font state (Rect.ordinary_ofInt32 x y wide high)
  have noticed : (Rect.ofInt32 x y w h).Noticed state.oskActive ↔
      panelWidth ≤ x.toInt ∨ panelHeight ≤ y.toInt ∨ x.toInt + w.toInt = 0 ∨
        y.toInt + h.toInt = 0 ∨ (state.oskActive = true ∧ oskY ≤ y.toInt) := by
    rw [← (toUInt32_of_pos wide).1, ← (toUInt32_of_pos high).1]
    exact Iff.rfl
  rw [exact, noticed]
  by_cases visible : ∃ row column, inRect x.toInt y.toInt w.toInt h.toInt row column = true
  · obtain ⟨row, column, shows⟩ := visible
    refine ⟨fun _ => .inl ⟨row, column, shows⟩, fun _ none => ?_⟩
    rw [none] at shows
    cases shows
  · have none : ∀ row column, inRect x.toInt y.toInt w.toInt h.toInt row column = false := by
      intro row column
      exact Bool.eq_false_iff.mpr fun shows => visible ⟨row, column, shows⟩
    simp only [visible, false_or]
    exact ⟨fun holds => holds none, fun noticed _ => noticed⟩

/-- A rectangle of fifty pixels that ends at the left edge. -/
theorem invisible_damage_at_edge :
    (State.updateRect inklessFont (.ofInt32 (-50) 100 50 50) {}).updates = [] ∧
      (State.updateRect inklessFont (.ofInt32 (-50) 100 50 50) {}).firstFullFrame = true :=
  (invisible_damage inklessFont {} (-50) 100 50 50 (by decide) (by decide)).mpr
    (.inr (.inr (.inr (.inl (by decide)))))
    (by
      have edge : (-50 : Int32).toInt + (50 : Int32).toInt = 0 := by decide
      intro row column
      simp only [inRect, Bool.and_eq_false_iff, decide_eq_false_iff_not]
      omega)

/-- A rectangle as big as the panel and fifty pixels to the left of it: the whole panel is
refreshed, with the flash. -/
theorem left_of_panel_flashes :
    (∀ row column, inRect (-1454) 0 1404 1872 row column = false) ∧
      (State.updateRect inklessFont (.ofInt32 (-1454) 0 1404 1872) {}).updates =
        [⟨0, 0, 1404, 1872, .full⟩] ∧
      (State.updateRect inklessFont (.ofInt32 (-1454) 0 1404 1872) {}).firstFullFrame = false := by
  refine ⟨?_, by decide +kernel, by decide +kernel⟩
  intro row column
  simp only [inRect, Bool.and_eq_false_iff, decide_eq_false_iff_not]
  omega

end Nookobo.Shim
