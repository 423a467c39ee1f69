import Nookobo.Semantics.Run
import Nookobo.Text.Lines

/-!
# The battery log

`battery_tracker.sh log` appends one record to `/data/battery_history.csv`, which it starts with a
header, and keeps the last 500 when the file has come to more than 550 lines; `clear` removes the
file. The file is a text here, and the two commands do to it what the script's `wc`, `head` and
`tail` do.

`window` is what the file is to hold: the last records since it was cleared. `log_keeps_window`
says that it is what the file holds after any sequence of the commands.
-/

namespace Nookobo.Battery

open Nookobo.Semantics Nookobo.Text

/-! ## Records -/

/-- The byte between two fields. -/
def comma : UInt8 := 44

/-- The text of an integer. -/
def integer (value : Int) : List UInt8 :=
  if value < 0 then 45 :: numeral 10 value.natAbs else numeral 10 value.natAbs

/-- `printf "%.1f"` of a tenth of an integer. -/
def tenths (value : Int) : List UInt8 :=
  (if value < 0 then [45] else []) ++ numeral 10 (value.natAbs / 10) ++ 46 ::
    numeral 10 (value.natAbs % 10)

/-- What `log` finds: the clock, and the files of the power supply as far as they can be read. -/
structure Reading where
  nowSec : Nat
  nowStr : List UInt8
  capacity : Option Int
  voltageNow : Option Int
  status : Option (List UInt8)
  temp : Option Int
  timeToEmptyNow : Option Int
  nowStr_plain : comma ∉ nowStr ∧ lineFeed ∉ nowStr
  status_line : ∀ text ∈ status, lineFeed ∉ text

namespace Reading

/-- `CAP`. -/
def cap (reading : Reading) : List UInt8 := integer (reading.capacity.getD 0)

/-- The fields that are written. -/
def fields (reading : Reading) : List (List UInt8) :=
  [numeral 10 reading.nowSec, reading.nowStr, reading.cap,
    integer ((reading.voltageNow.getD 0).tdiv 1000), reading.status.getD (ascii "0"),
    tenths (reading.temp.getD 0), integer (reading.timeToEmptyNow.getD 0)]

/-- The record. -/
def line (reading : Reading) : List UInt8 := [comma].intercalate reading.fields

end Reading

/-- The first line of a log. -/
def header : List UInt8 :=
  ascii "epoch,datetime,capacity_pct,voltage_mv,status,temp_c,time_empty_s"

/-! ## The commands -/

/-- The log file, if there is one. -/
abbrev LogFile := Option (List UInt8)

/-- `log`. -/
def log (reading : Reading) (logFile : LogFile) : List UInt8 :=
  let started := logFile.getD (header ++ [lineFeed])
  let appended := started ++ (reading.line ++ [lineFeed])
  if countLines appended > 550 then headLines 1 appended ++ tailLines 500 appended else appended

/-- The two commands on the log. -/
inductive Command where
  | log (reading : Reading)
  | clear

/-- The log file under its commands, from no file on. -/
def machine : Machine LogFile Command where
  initial := none
  step logFile command :=
    match command with
    | .log reading => some (log reading logFile)
    | .clear => none

/-! ## What the file is to hold -/

/-- What was appended since the log was cleared. -/
def history (commands : List Command) : List Reading :=
  commands.foldl (fun before command =>
    match command with
    | .log reading => before ++ [reading]
    | .clear => []) []

/-- How many records are kept of so many. -/
def kept (appended : Nat) : Nat := if appended ≤ 549 then appended else 500 + appended % 50

/-- The last records. -/
def recent (count : Nat) (records : List Reading) : List Reading :=
  records.drop (records.length - count)

/-- The records that are kept. -/
def window (records : List Reading) : List Reading := recent (kept records.length) records

/-- The file with these records. -/
def fileOf (records : List Reading) : List UInt8 :=
  unlines (header :: records.map Reading.line)

/-- The file that belongs to a history. -/
def logOf (records : List Reading) : LogFile :=
  if records = [] then none else some (fileOf (window records))

/-! ## A record is a line -/

/-- What is in a joined text is a separator or in one of its parts. -/
theorem mem_intercalate {byte separator : UInt8} {parts : List (List UInt8)}
    (member : byte ∈ [separator].intercalate parts) :
    byte = separator ∨ ∃ part ∈ parts, byte ∈ part := by
  induction parts with
  | nil => cases member
  | cons part rest ih =>
      cases rest with
      | nil => exact .inr ⟨part, List.mem_cons_self, by simpa using member⟩
      | cons next rest =>
          rw [List.intercalate_cons_cons, List.mem_append, List.mem_append,
            List.mem_singleton] at member
          rcases member with (here | same) | later
          · exact .inr ⟨part, List.mem_cons_self, here⟩
          · exact .inl same
          · rcases ih later with same | ⟨other, among, there⟩
            · exact .inl same
            · exact .inr ⟨other, List.mem_cons_of_mem _ among, there⟩

/-- A byte that is no digit is in the text of an integer only as its sign. -/
theorem notMem_integer {byte : UInt8} (minus : byte ≠ 45) (digit : isDigit byte = false)
    (value : Int) : byte ∉ integer value := by
  have number : byte ∉ numeral 10 value.natAbs := fun member =>
    Bool.false_ne_true (digit.symm.trans (isDigit_numeral _ byte member))
  unfold integer
  split
  · rw [List.mem_cons, not_or]
    exact ⟨minus, number⟩
  · exact number

/-- A number of tenths is one line. -/
theorem lineFeed_notMem_tenths (value : Int) : lineFeed ∉ tenths value := by
  unfold tenths
  rw [List.mem_append, List.mem_append, List.mem_cons]
  rintro ((sign | whole) | point | fraction)
  · split at sign <;> exact absurd sign (by decide)
  · exact lineFeed_notMem_numeral _ whole
  · cases point
  · exact lineFeed_notMem_numeral _ fraction

/-- A record is one line. -/
theorem Reading.lineFeed_notMem_line (reading : Reading) : lineFeed ∉ reading.line := by
  intro member
  have number : ∀ value, lineFeed ∉ integer value := notMem_integer (by decide) (by decide)
  rcases mem_intercalate member with same | ⟨field, among, inside⟩
  · cases same
  · have each : ∀ field ∈ reading.fields, lineFeed ∉ field := by
      unfold Reading.fields
      simp only [List.forall_mem_cons]
      refine ⟨lineFeed_notMem_numeral _, reading.nowStr_plain.2, number _, number _, ?_,
        lineFeed_notMem_tenths _, number _, fun field among => by cases among⟩
      cases status : reading.status with
      | none => decide
      | some text => exact reading.status_line text status
    exact each field among inside

/-- Every line of the file is one. -/
theorem proper_lines (records : List Reading) :
    ∀ line ∈ header :: records.map Reading.line, lineFeed ∉ line := by
  intro line member
  rcases List.mem_cons.mp member with rfl | record
  · decide
  · obtain ⟨reading, _, rfl⟩ := List.mem_map.mp record
    exact reading.lineFeed_notMem_line

/-- A log has its header and a line for each record. -/
theorem countLines_fileOf (records : List Reading) :
    countLines (fileOf records) = records.length + 1 := by
  unfold fileOf
  rw [countLines_unlines (proper_lines records), List.length_cons, List.length_map]

/-- One more line is one more record. -/
theorem fileOf_append (records : List Reading) (reading : Reading) :
    fileOf records ++ (reading.line ++ [lineFeed]) = fileOf (records ++ [reading]) := by
  unfold fileOf
  rw [List.map_append, ← List.cons_append, unlines_append, List.map_singleton, unlines_singleton]

/-- The header and the last lines, where these are records. -/
theorem roll_fileOf {records : List Reading} {count : Nat} (enough : count ≤ records.length) :
    headLines 1 (fileOf records) ++ tailLines count (fileOf records) =
      fileOf (recent count records) := by
  have proper := proper_lines records
  have skipped : (header :: records.map Reading.line).length - count =
      (records.length - count) + 1 := by
    rw [List.length_cons, List.length_map]
    omega
  unfold fileOf recent
  rw [headLines_unlines proper, tailLines_unlines proper, skipped, List.drop_succ_cons,
    ← List.map_drop, ← unlines_append]
  rfl

/-! ## The window moves -/

/-- No more records are kept than were written. -/
theorem kept_le (appended : Nat) : kept appended ≤ appended := by
  unfold kept
  split <;> omega

/-- Once the log has been rolled, 500 to 549 records are kept. -/
theorem kept_bounds {appended : Nat} (many : 549 < appended) :
    500 ≤ kept appended ∧ kept appended ≤ 549 := by
  unfold kept
  rw [if_neg (by omega)]
  omega

/-- One record more is kept, unless the window is full. -/
theorem kept_succ (appended : Nat) :
    kept (appended + 1) = if kept appended = 549 then 500 else kept appended + 1 := by
  unfold kept
  split <;> split <;> split <;> omega

/-- The window has as many records as are kept. -/
theorem length_window (records : List Reading) :
    (window records).length = kept records.length := by
  have bound := kept_le records.length
  unfold window recent
  rw [List.length_drop]
  omega

/-- One more record behind a window is the last records of the longer history. -/
theorem window_append (records : List Reading) (reading : Reading) :
    window records ++ [reading] = recent (kept records.length + 1) (records ++ [reading]) := by
  unfold window recent
  rw [List.length_append, List.length_singleton, Nat.add_sub_add_right,
    List.drop_append_of_le_length (Nat.sub_le _ _)]

/-- The last records of the last records. -/
theorem recent_recent {first second : Nat} (less : second ≤ first) {records : List Reading}
    (enough : first ≤ records.length) :
    recent second (recent first records) = recent second records := by
  unfold recent
  rw [List.drop_drop, List.length_drop]
  congr 1
  omega

/-- A record is appended to the window of a history. -/
theorem log_window (records : List Reading) (reading : Reading) :
    log reading (logOf records) = fileOf (window (records ++ [reading])) := by
  have started : (logOf records).getD (header ++ [lineFeed]) = fileOf (window records) := by
    unfold logOf
    split
    · next empty => rw [empty]; rfl
    · rfl
  have grown : (records ++ [reading]).length = records.length + 1 := List.length_append
  have length := length_window records
  have bound := kept_le records.length
  have next := kept_succ records.length
  unfold log
  dsimp only
  rw [started, fileOf_append, countLines_fileOf, List.length_append, length,
    List.length_singleton, window_append]
  by_cases full : kept records.length = 549
  · rw [if_pos full] at next
    rw [if_pos (by omega), roll_fileOf (by unfold recent; rw [List.length_drop]; omega),
      recent_recent (by omega) (by omega)]
    unfold window
    rw [grown, next]
  · have small : kept records.length ≤ 549 := by
      unfold kept
      split <;> omega
    rw [if_neg full] at next
    rw [if_neg (by omega)]
    unfold window
    rw [grown, next]

/-- One more command writes a record or begins a new history. -/
theorem history_append (commands : List Command) (command : Command) :
    history (commands ++ [command]) =
      match command with
      | .log reading => history commands ++ [reading]
      | .clear => [] := by
  unfold history
  rw [List.foldl_append]
  rfl

/-- The file is always that of its history. -/
theorem run_eq_logOf (commands : List Command) :
    machine.run machine.initial commands = logOf (history commands) := by
  induction commands using List.reverseRecOn with
  | nil => rfl
  | append_singleton commands command ih =>
      rw [Machine.run_append, ih, history_append]
      cases command with
      | clear => rfl
      | log reading =>
          have some : history commands ++ [reading] ≠ [] :=
            List.append_ne_nil_of_right_ne_nil _ (List.cons_ne_nil _ _)
          unfold logOf
          rw [if_neg some, ← log_window]
          rfl

/-- After a record was appended the file is the header and the last records since it was cleared:
all of them up to 549, and from then on between 500 and 549. -/
theorem log_keeps_window (commands : List Command) (reading : Reading) :
    ∃ k, machine.run machine.initial (commands ++ [.log reading]) =
        some (fileOf (recent k (history (commands ++ [.log reading])))) ∧
      k ≤ (history (commands ++ [.log reading])).length ∧
      ((history (commands ++ [.log reading])).length ≤ 549 →
        k = (history (commands ++ [.log reading])).length) ∧
      (549 < (history (commands ++ [.log reading])).length → 500 ≤ k ∧ k ≤ 549) := by
  have some : history (commands ++ [.log reading]) ≠ [] := by
    rw [history_append]
    exact List.append_ne_nil_of_right_ne_nil _ (List.cons_ne_nil _ _)
  refine ⟨kept (history (commands ++ [.log reading])).length, ?_, kept_le _, ?_, kept_bounds⟩
  · rw [run_eq_logOf]
    exact if_neg some
  · intro few
    exact if_pos few

end Nookobo.Battery
