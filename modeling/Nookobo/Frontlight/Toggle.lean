import Nookobo.Text.Lines

/-!
# The frontlight script

`toggle_frontlight.sh` saves the levels of two of the three channels and turns all three off, or
sets the two channels to what was saved, a saved zero being replaced by a default. The levels are
files of sysfs, which the script reads and writes as texts.

`toggle_twice_iff` says for which levels two runs leave the light as it was.
-/

namespace Nookobo.Frontlight

open Nookobo.Text

/-- What a level becomes when a text is written to its file, for numbers that the channel takes. -/
structure Driver where
  store : List UInt8 → Option Nat
  store_numeral : ∀ level, store (numeral 10 level ++ [lineFeed]) = some level

/-- The levels of `mxc_msp430_fl.0`, `lm3630a_leda` and `lm3630a_ledb`. -/
structure Levels where
  msp : Nat
  leda : Nat
  ledb : Nat
deriving DecidableEq, Repr

/-- The levels and `STATE_FILE`. -/
structure State where
  levels : Levels
  saved : Option (List UInt8) := none
deriving DecidableEq, Repr

/-- `$(cat ...)` of the file of a level. -/
def cat (level : Nat) : List UInt8 := substituted (numeral 10 level ++ [lineFeed])

/-- `echo text > file`: the level stays where the write fails. -/
def Driver.echo (driver : Driver) (text : List UInt8) (level : Nat) : Nat :=
  (driver.store (text ++ [lineFeed])).getD level

/-- `$(echo "$READ_VALS" | awk '{print $number}')`. -/
def field (number : Nat) (readVals : List UInt8) : List UInt8 :=
  substituted (awkPrint number (readVals ++ [lineFeed]))

/-- `[ -n "$VAL" ] && [ "$VAL" -gt 0 ] && RESTORE="$VAL"`. -/
def restoreOr (default val : List UInt8) : List UInt8 :=
  if val ≠ [] ∧ testGreater val 0 = true then val else default

/-- `toggle_frontlight.sh`. -/
def toggleFrontlight (driver : Driver) (state : State) : State :=
  let levels := state.levels
  let currentMsp := cat levels.msp
  let currentLeda := cat levels.leda
  if testGreater currentMsp 0 || testGreater currentLeda 0 then
    { levels :=
        { msp := driver.echo (ascii "0") levels.msp
          leda := driver.echo (ascii "0") levels.leda
          ledb := driver.echo (ascii "0") levels.ledb }
      saved := some (currentMsp ++ 32 :: currentLeda ++ [lineFeed]) }
  else
    let restored : List UInt8 × List UInt8 :=
      match state.saved with
      | some saved =>
          let readVals := substituted saved
          (restoreOr (ascii "25") (field 1 readVals), restoreOr (ascii "50") (field 2 readVals))
      | none => (ascii "25", ascii "50")
    { state with
      levels :=
        { levels with
          msp := driver.echo restored.1 levels.msp
          leda := driver.echo restored.2 levels.leda } }

/-- What the script takes for light. -/
def Levels.On (levels : Levels) : Prop := 0 < levels.msp ∨ 0 < levels.leda

/-! ## Runs -/

/-- `cat` prints a level as its numeral. -/
theorem cat_eq (level : Nat) : cat level = numeral 10 level :=
  substituted_line (lineFeed_notMem_numeral level)

/-- What is echoed is read by the driver as the number. -/
theorem Driver.echo_numeral (driver : Driver) (number level : Nat) :
    driver.echo (numeral 10 number) level = number := by
  unfold Driver.echo
  rw [driver.store_numeral]
  rfl

/-- A level of zero is restored to the default. -/
theorem restoreOr_numeral (default level : Nat) :
    restoreOr (numeral 10 default) (numeral 10 level) =
      numeral 10 (if 0 < level then level else default) := by
  unfold restoreOr
  rw [testGreater_numeral]
  by_cases some : 0 < level
  · rw [if_pos ⟨numeral_ne_nil 10 level, decide_eq_true some⟩, if_pos some]
  · rw [if_neg fun both => some (of_decide_eq_true both.2), if_neg some]

/-- The line that is saved. -/
def savedLine (msp leda : Nat) : List UInt8 := numeral 10 msp ++ 32 :: numeral 10 leda

/-- What is saved is one line. -/
theorem lineFeed_notMem_savedLine (msp leda : Nat) : lineFeed ∉ savedLine msp leda := by
  unfold savedLine
  rw [List.mem_append, List.mem_cons]
  rintro (front | blank | back)
  · exact lineFeed_notMem_numeral msp front
  · cases blank
  · exact lineFeed_notMem_numeral leda back

/-- What `awk` finds in it. -/
theorem field_savedLine (msp leda : Nat) :
    field 1 (savedLine msp leda) = numeral 10 msp ∧
      field 2 (savedLine msp leda) = numeral 10 leda := by
  have single : lines (savedLine msp leda ++ [lineFeed]) = [savedLine msp leda] := by
    rw [← unlines_singleton]
    refine lines_unlines fun line member => ?_
    rw [List.mem_singleton.mp member]
    exact lineFeed_notMem_savedLine msp leda
  have words : blankFields (savedLine msp leda) = [numeral 10 msp, numeral 10 leda] :=
    blankFields_pair (numeral_ne_nil 10 msp) (numeral_ne_nil 10 leda) (isSpace_numeral msp)
      (isSpace_numeral leda)
  unfold field awkPrint
  rw [single, List.map_singleton, List.map_singleton, words, unlines_singleton, unlines_singleton]
  exact ⟨substituted_line (lineFeed_notMem_numeral msp),
    substituted_line (lineFeed_notMem_numeral leda)⟩

section Runs

variable (driver : Driver) {state : State}

/-- The test is whether one of the two channels is on. -/
theorem testOn_iff (levels : Levels) :
    (testGreater (cat levels.msp) 0 || testGreater (cat levels.leda) 0) = true ↔ levels.On := by
  rw [cat_eq, cat_eq, testGreater_numeral, testGreater_numeral, Bool.or_eq_true,
    decide_eq_true_eq, decide_eq_true_eq]
  rfl

/-- A run with the light on turns it off. -/
theorem toggle_of_on (lit : state.levels.On) :
    toggleFrontlight driver state =
      { levels := { msp := 0, leda := 0, ledb := 0 }
        saved := some (savedLine state.levels.msp state.levels.leda ++ [lineFeed]) } := by
  have off : ∀ level, driver.echo (ascii "0") level = 0 := driver.echo_numeral 0
  unfold toggleFrontlight
  dsimp only
  rw [if_pos ((testOn_iff state.levels).mpr lit), off, off, off, cat_eq, cat_eq]
  rfl

/-- A run with the light off sets what was saved, or the defaults where that is zero. -/
theorem toggle_of_off {msp leda : Nat} (dark : ¬ state.levels.On)
    (saved : state.saved = some (savedLine msp leda ++ [lineFeed])) :
    (toggleFrontlight driver state).levels =
      { msp := if 0 < msp then msp else 25
        leda := if 0 < leda then leda else 50
        ledb := state.levels.ledb } := by
  obtain ⟨first, second⟩ := field_savedLine msp leda
  have read : substituted (savedLine msp leda ++ [lineFeed]) = savedLine msp leda :=
    substituted_line (lineFeed_notMem_savedLine msp leda)
  have mspText := restoreOr_numeral 25 msp
  have ledaText := restoreOr_numeral 50 leda
  unfold toggleFrontlight
  dsimp only
  rw [if_neg fun on => dark ((testOn_iff state.levels).mp on), saved]
  dsimp only
  rw [read, first, second]
  change Levels.mk (driver.echo (restoreOr (numeral 10 25) (numeral 10 msp)) state.levels.msp)
    (driver.echo (restoreOr (numeral 10 50) (numeral 10 leda)) state.levels.leda)
    state.levels.ledb = _
  rw [mspText, ledaText, driver.echo_numeral, driver.echo_numeral]

/-- Two runs leave the light as it was exactly if both saved channels were on and the third,
which is turned off but not saved, was off. -/
theorem toggle_twice_iff (lit : state.levels.On) :
    (toggleFrontlight driver (toggleFrontlight driver state)).levels = state.levels ↔
      0 < state.levels.msp ∧ 0 < state.levels.leda ∧ state.levels.ledb = 0 := by
  rw [toggle_of_on driver lit, toggle_of_off driver (by rintro (on | on) <;> cases on) rfl]
  generalize state.levels = levels
  obtain ⟨msp, leda, ledb⟩ := levels
  dsimp only
  rw [Levels.mk.injEq]
  constructor
  · rintro ⟨first, second, third⟩
    split at first <;> split at second <;> omega
  · rintro ⟨first, second, third⟩
    rw [if_pos first, if_pos second, third]
    exact ⟨rfl, rfl, rfl⟩

end Runs

/-- A channel that takes every decimal number. -/
def decimalDriver : Driver where
  store text := readNumeral 10 (substituted text)
  store_numeral level := by
    rw [substituted_line (lineFeed_notMem_numeral level)]
    exact readNumeral_numeral (by decide) (by decide) level

/-- With the third channel off, two toggles restore the levels. -/
theorem toggle_twice_two_channels :
    (toggleFrontlight decimalDriver (toggleFrontlight decimalDriver
      { levels := ⟨10, 20, 0⟩, saved := some (ascii "junk") })).levels = ⟨10, 20, 0⟩ :=
  (toggle_twice_iff decimalDriver (.inl (by decide))).mpr ⟨by decide, by decide, rfl⟩

/-- The third channel stays off. -/
theorem toggle_twice_third_channel :
    (toggleFrontlight decimalDriver (toggleFrontlight decimalDriver
      { levels := ⟨10, 20, 5⟩ })).levels ≠ ⟨10, 20, 5⟩ := by
  have lit : (State.mk ⟨10, 20, 5⟩ none).levels.On := .inl (by decide)
  rw [toggle_of_on decimalDriver lit,
    toggle_of_off decimalDriver (by rintro (on | on) <;> cases on) rfl]
  decide

end Nookobo.Frontlight
