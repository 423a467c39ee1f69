import Nookobo.Battery.Log

/-!
# The discharge rate

`battery_tracker.sh status` takes two lines of the log to compute the discharge rate: the last one,
and the first of the last 30. The log starts with a header, which is the first of the last 30 lines
as long as there are fewer than 30 records; `rate_measured_iff` says that both lines are records
exactly from then on.
-/

namespace Nookobo.Battery

open Nookobo.Semantics Nookobo.Text

/-! ## The lines that are taken -/

/-- `$(echo "$RECORD" | cut -d',' -f number)`. -/
def cutRecord (number : Nat) (record : List UInt8) : List UInt8 :=
  substituted (cutField comma number record ++ [lineFeed])

/-- `FIRST_RECORD` and `LAST_RECORD`. -/
def firstRecord (logFile : List UInt8) : List UInt8 :=
  substituted (headLines 1 (tailLines 30 logFile))

/-- `LAST`: the last line of the log. -/
def lastRecord (logFile : List UInt8) : List UInt8 := substituted (tailLines 1 logFile)

/-- `T1`, `C1`, `T2` and `C2`. -/
structure Samples where
  t1 : List UInt8
  c1 : List UInt8
  t2 : List UInt8
  c2 : List UInt8
deriving DecidableEq

/-- What the discharge rate is computed from, where it is. -/
def samples (logFile : List UInt8) : Option Samples :=
  if countLines logFile > 5 then
    some
      { t1 := cutRecord 1 (firstRecord logFile)
        c1 := cutRecord 3 (firstRecord logFile)
        t2 := cutRecord 1 (lastRecord logFile)
        c2 := cutRecord 3 (lastRecord logFile) }
  else none

/-! ## Records -/

/-- The lines that are taken are those of these two records. -/
structure Measures (logFile : List UInt8) (first last : Reading) : Prop where
  firstRecord : firstRecord logFile = first.line
  lastRecord : lastRecord logFile = last.line
  samples : samples logFile =
    some ⟨numeral 10 first.nowSec, first.cap, numeral 10 last.nowSec, last.cap⟩

/-- The two lines are the last record and the one 30 records from the end, or the first one; so
their times are in order if the recorded times are. -/
def Measured (records : List Reading) : Prop :=
  ∃ first last, records[records.length - min records.length 30]? = some first ∧
    records.getLast? = some last ∧ Measures (fileOf records) first last ∧
      (records.Pairwise (fun earlier later => earlier.nowSec ≤ later.nowSec) →
        first.nowSec ≤ last.nowSec)

/-- The first and the third part of a line with commas. -/
theorem cutField_parts {first second third : List UInt8} (plainFirst : comma ∉ first)
    (plainSecond : comma ∉ second) (plainThird : comma ∉ third) (rest : List UInt8) :
    cutField comma 1 (first ++ comma :: (second ++ comma :: (third ++ comma :: rest))) = first ∧
      cutField comma 3 (first ++ comma :: (second ++ comma :: (third ++ comma :: rest))) =
        third := by
  have some : comma ∈ first ++ comma :: (second ++ comma :: (third ++ comma :: rest)) :=
    List.mem_append_right _ List.mem_cons_self
  unfold cutField
  rw [if_pos some, if_pos some, List.splitOn_append_cons_self_of_not_mem plainFirst,
    List.splitOn_append_cons_self_of_not_mem plainSecond,
    List.splitOn_append_cons_self_of_not_mem plainThird]
  exact ⟨rfl, rfl⟩

/-- The first and the third field of a record. -/
theorem cutRecord_line (reading : Reading) :
    cutRecord 1 reading.line = numeral 10 reading.nowSec ∧
      cutRecord 3 reading.line = reading.cap := by
  have digits : comma ∉ numeral 10 reading.nowSec := fun member =>
    absurd (isDigit_numeral _ comma member) (by decide)
  have shape : reading.line = numeral 10 reading.nowSec ++ comma :: (reading.nowStr ++ comma ::
      (reading.cap ++ comma :: [comma].intercalate (reading.fields.drop 3))) := by
    unfold Reading.line Reading.fields
    rw [List.intercalate_cons_cons, List.intercalate_cons_cons, List.intercalate_cons_cons]
    simp only [List.append_assoc, List.singleton_append, List.drop_succ_cons, List.drop_zero]
  have plain : comma ∉ reading.cap := notMem_integer (by decide) (by decide) _
  have proper : lineFeed ∉ reading.cap := notMem_integer (by decide) (by decide) _
  obtain ⟨time, capacity⟩ := cutField_parts digits reading.nowStr_plain.1 plain
    ([comma].intercalate (reading.fields.drop 3))
  rw [← shape] at time capacity
  unfold cutRecord
  rw [time, capacity]
  exact ⟨substituted_line (lineFeed_notMem_numeral _), substituted_line proper⟩

/-- The header is no record. -/
theorem header_ne_line (reading : Reading) : header ≠ reading.line := by
  intro same
  have first := (cutRecord_line reading).1
  rw [← same] at first
  have digit := isDigit_numeral reading.nowSec 101
  rw [← first] at digit
  exact absurd (digit (by decide)) (by decide)

/-- The lines at the end of the file. -/
theorem tailLines_fileOf (records : List Reading) (count : Nat) :
    tailLines count (fileOf records) =
      unlines ((header :: records.map Reading.line).drop (records.length + 1 - count)) := by
  unfold fileOf
  rw [tailLines_unlines (proper_lines records), List.length_cons, List.length_map]

/-- The first of the lines at the end, where these are records. -/
theorem headLines_tailLines {records : List Reading} {count : Nat}
    (enough : count ≤ records.length) {first : Reading}
    (place : records[records.length - count]? = some first) :
    headLines 1 (tailLines count (fileOf records)) = first.line ++ [lineFeed] := by
  obtain ⟨inside, same⟩ := List.getElem?_eq_some_iff.mp place
  have from_ : (header :: records.map Reading.line).drop (records.length + 1 - count) =
      first.line :: (records.drop (records.length - count + 1)).map Reading.line := by
    have skipped : records.length + 1 - count = (records.length - count) + 1 := by omega
    rw [skipped, List.drop_succ_cons, ← List.map_drop, List.drop_eq_getElem_cons inside, same,
      List.map_cons]
  rw [tailLines_fileOf, from_, unlines_cons, headLines_line first.lineFeed_notMem_line, headLines]

/-- With 30 records, the first of the last 30 is taken. -/
theorem firstRecord_of_many {records : List Reading} (many : 30 ≤ records.length)
    {first : Reading} (place : records[records.length - 30]? = some first) :
    firstRecord (fileOf records) = first.line := by
  unfold firstRecord
  rw [headLines_tailLines many place]
  exact substituted_line first.lineFeed_notMem_line

/-- Until there are 30 records the first of the last 30 lines is the header. -/
theorem firstRecord_of_few {records : List Reading} (few : records.length < 30) :
    firstRecord (fileOf records) = header := by
  have plain : lineFeed ∉ header := by decide
  have whole : records.length + 1 - 30 = 0 := by omega
  unfold firstRecord
  rw [tailLines_fileOf, whole, List.drop_zero, unlines_cons, headLines_line plain, headLines]
  exact substituted_line plain

/-- The last line is a record. -/
theorem lastRecord_fileOf {records : List Reading} {last : Reading}
    (ends : records.getLast? = some last) : lastRecord (fileOf records) = last.line := by
  obtain ⟨front, rfl⟩ := List.getLast?_eq_some_iff.mp ends
  have skipped : (front ++ [last]).length + 1 - 1 = (header :: front.map Reading.line).length := by
    simp
  unfold lastRecord
  rw [tailLines_fileOf, skipped, List.map_append, ← List.cons_append, List.drop_left,
    List.map_singleton, unlines_singleton]
  exact substituted_line last.lineFeed_notMem_line

/-- With 30 records in the file both lines are records. -/
theorem measured_of_many {records : List Reading} (many : 30 ≤ records.length) :
    Measured records := by
  have inside : records.length - 30 < records.length := by omega
  have nonempty : records ≠ [] := List.ne_nil_of_length_pos (by omega)
  let first := records[records.length - 30]
  let last := records.getLast nonempty
  have place : records[records.length - 30]? = some first := List.getElem?_eq_getElem inside
  have ends : records.getLast? = some last := List.getLast?_eq_some_getLast nonempty
  have firstLine := firstRecord_of_many many place
  have lastLine := lastRecord_fileOf ends
  refine ⟨first, last, ?_, ends, ⟨firstLine, lastLine, ?_⟩, ?_⟩
  · rw [Nat.min_eq_right many]
    exact place
  · unfold samples
    rw [countLines_fileOf, if_pos (by omega), firstLine, lastLine, (cutRecord_line first).1,
      (cutRecord_line first).2, (cutRecord_line last).1, (cutRecord_line last).2]
  · intro ordered
    have final : last = records[records.length - 1] := List.getLast_eq_getElem nonempty
    rw [final]
    by_cases apart : records.length - 30 < records.length - 1
    · exact List.pairwise_iff_getElem.mp ordered _ _ inside (by omega) apart
    · omega

/-- The two lines are records exactly if there are 30 of them. -/
theorem measured_iff (records : List Reading) : Measured records ↔ 30 ≤ records.length := by
  constructor
  · rintro ⟨first, last, _, _, measures, _⟩
    by_contra few
    have line := measures.firstRecord
    rw [firstRecord_of_few (Nat.lt_of_not_le few)] at line
    exact header_ne_line first line
  · exact measured_of_many

/-- In the log of any sequence of commands, the rate is computed from two records, the last and the
one 30 records from the end, exactly if the log holds 30 records. -/
theorem rate_measured_iff (commands : List Command) {logFile : List UInt8}
    (written : machine.run machine.initial commands = some logFile) :
    logFile = fileOf (window (history commands)) ∧
      (Measured (window (history commands)) ↔ 30 ≤ (window (history commands)).length) := by
  refine ⟨?_, measured_iff _⟩
  rw [run_eq_logOf] at written
  unfold logOf at written
  split at written
  · cases written
  · exact (Option.some_inj.mp written).symm

/-- A reading that is taken every minute. -/
def minuteReading : Reading where
  nowSec := 1700000000
  nowStr := ascii "2023-11-14 22:13:20"
  capacity := some 80
  voltageNow := some 3912000
  status := some (ascii "Discharging")
  temp := some 251
  timeToEmptyNow := none
  nowStr_plain := by decide
  status_line := by
    rintro _ ⟨⟩
    decide

/-- Half an hour of records, one a minute, is measured. -/
theorem rate_measured_half_hour :
    Measured (window (history (List.replicate 30 (.log minuteReading)))) :=
  (rate_measured_iff (List.replicate 30 (.log minuteReading)) (run_eq_logOf _)).2.mpr
    (by decide)

/-- After five minutes there are six lines, and the header is taken for a record. -/
theorem rate_from_header :
    ∃ logFile, machine.run machine.initial (List.replicate 5 (.log minuteReading)) =
        some logFile ∧ 5 < countLines logFile ∧
      ¬ Measured (window (history (List.replicate 5 (.log minuteReading)))) := by
  refine ⟨_, run_eq_logOf _, ?_, ?_⟩
  · rw [countLines_fileOf]
    decide
  · rw [measured_iff]
    decide

end Nookobo.Battery
