import Mathlib.Data.List.TakeWhile
import Nookobo.Semantics.Run
import Nookobo.Text.CString

/-!
# Commands through the FIFO

`nook-webkey` writes one line per command; the shim's `input_worker` reads up to
255 bytes at a time, cuts the buffer into lines and hands every line to
`handle_fifo_command`. Nothing is carried over from one read to the next, so a
read that ends inside a line delivers that line in two pieces.

`framing_exact` says which schedules deliver the commands as they were written:
those whose reads all end at a line boundary (and whose commands are not empty,
because `strtok` returns no empty line).
-/

namespace Nookobo.Shim.FifoInput

open Nookobo.Semantics Nookobo.Text

/-- `sizeof(fifo_buf) - 1`. -/
def readSize : Nat := 255

/-- A command as `fifo_write` receives it, without its final newline. -/
structure Command where
  text : List UInt8
  noNul : ∀ byte ∈ text, byte ≠ 0
  oneLine : ∀ byte ∈ text, isLineBreak byte = false
  fits : text.length + 1 ≤ 600

/-- The bytes in the FIFO and, for comparison, what has been written to it and
what has been passed to `handle_fifo_command`. -/
structure Channel where
  queue : List UInt8 := []
  written : List (List UInt8) := []
  dispatched : List (List UInt8) := []
deriving DecidableEq, Repr

/-- Who acts on the FIFO next. -/
inductive Op where
  | write (command : Command)
  | read

/-- The external FIFO input of `input_worker`: one `read`, then `strtok` until the
buffer is exhausted. -/
def readFifo (queue : List UInt8) : List (List UInt8) × List UInt8 :=
  (tokens (cString (queue.take readSize)), queue.drop readSize)

/-- So many reads, one after the other: all lines they hand to `handle_fifo_command`. -/
def readRounds : Nat → List UInt8 → List (List UInt8)
  | 0, _ => []
  | rounds + 1, queue => (readFifo queue).1 ++ readRounds rounds (readFifo queue).2

/-- The reads until the FIFO is empty. -/
def drain (queue : List UInt8) : List (List UInt8) := readRounds queue.length queue

/-- The room that is left for what is behind `ahead` bytes in the read that reaches it. -/
def roomBehind (ahead : Nat) : Nat := readSize - ahead % readSize

/-- The lines made of bytes that have `ahead` bytes of complete lines in front of them in the
FIFO (`drain_append`). -/
def linesBehind (ahead : Nat) (bytes : List UInt8) : List (List UInt8) :=
  tokens (cString (bytes.take (roomBehind ahead))) ++ drain (bytes.drop (roomBehind ahead))

/-- A write puts the command behind the others; a read passes on what `input_worker` makes of it. -/
def Channel.step (channel : Channel) : Op → Channel
  | .write command =>
      { channel with
        queue := channel.queue ++ (command.text ++ [lineFeed])
        written := channel.written ++ [command.text] }
  | .read =>
      { channel with
        queue := (readFifo channel.queue).2
        dispatched := channel.dispatched ++ (readFifo channel.queue).1 }

/-- The FIFO from empty, over any writes and reads. -/
def machine : Machine Channel Op where
  initial := {}
  step := Channel.step

/-! ## Reading until the FIFO is empty -/

/-- The reads of the machine hand on what `readRounds` says. -/
theorem dispatched_replicate (channel : Channel) (rounds : Nat) :
    (machine.run channel (List.replicate rounds .read)).dispatched =
      channel.dispatched ++ readRounds rounds channel.queue := by
  induction rounds generalizing channel with
  | zero => exact (List.append_nil _).symm
  | succ rounds ih =>
      rw [List.replicate_succ, Machine.run_cons, ih, readRounds, ← List.append_assoc]
      rfl

/-- An empty FIFO stays empty. -/
theorem readRounds_nil (rounds : Nat) : readRounds rounds [] = [] := by
  induction rounds with
  | zero => rfl
  | succ rounds ih => exact ih

/-- Reads of an empty FIFO add nothing. -/
theorem readRounds_of_le (rounds : Nat) {queue : List UInt8} (enough : queue.length ≤ rounds) :
    readRounds rounds queue = drain queue := by
  induction rounds using Nat.strong_induction_on generalizing queue with
  | _ rounds ih =>
      cases queue with
      | nil => exact readRounds_nil rounds
      | cons byte rest =>
          have shorter : ((byte :: rest).drop readSize).length ≤ rest.length := by
            rw [List.length_drop, List.length_cons, readSize]
            omega
          rw [List.length_cons] at enough
          obtain ⟨rounds, rfl⟩ : ∃ before, rounds = before + 1 := ⟨rounds - 1, by omega⟩
          rw [drain, List.length_cons, readRounds, readRounds, readFifo]
          dsimp only
          rw [ih rounds (by omega) (by omega), ih rest.length (by omega) shorter]

/-- One read and then the others. -/
theorem drain_eq (queue : List UInt8) :
    drain queue = tokens (cString (queue.take readSize)) ++ drain (queue.drop readSize) := by
  cases queue with
  | nil => rfl
  | cons byte rest =>
      rw [drain, List.length_cons, readRounds, readFifo]
      refine congrArg _ (readRounds_of_le rest.length ?_)
      rw [List.length_drop, List.length_cons, readSize]
      omega

/-- A buffer without NUL is a C string as a whole. -/
theorem cString_of_noNul {bytes : List UInt8} (noNul : ∀ byte ∈ bytes, byte ≠ 0) :
    cString bytes = bytes := by
  rw [cString, List.takeWhile_eq_self_iff]
  intro byte member
  simpa using noNul byte member

/-- What is read of bytes without NUL is nothing exactly when they are line breaks. -/
theorem drain_eq_nil_iff {queue : List UInt8} (noNul : ∀ byte ∈ queue, byte ≠ 0) :
    drain queue = [] ↔ ∀ byte ∈ queue, isLineBreak byte = true := by
  induction length : queue.length using Nat.strong_induction_on generalizing queue with
  | _ length' ih =>
      cases queue with
      | nil => exact iff_of_true rfl (by simp)
      | cons byte rest =>
          have shorter : ((byte :: rest).drop readSize).length < length' := by
            rw [← length, List.length_drop, List.length_cons, readSize]
            omega
          have later := ih _ shorter
            (fun other member => noNul other (List.mem_of_mem_drop member)) rfl
          rw [drain_eq, List.append_eq_nil_iff, later,
            cString_of_noNul fun other member => noNul other (List.mem_of_mem_take member),
            tokens_eq_nil_iff]
          conv_rhs => rw [← List.take_append_drop readSize (byte :: rest)]
          exact List.forall_mem_append.symm

/-- Complete lines in front do not change what is made of the bytes behind them, but take room
in the read that reaches these. -/
theorem drain_append {waiting : List UInt8} (closed : openToken [] waiting = [])
    (noNul : ∀ byte ∈ waiting, byte ≠ 0) (bytes : List UInt8) :
    drain (waiting ++ bytes) = drain waiting ++ linesBehind waiting.length bytes := by
  induction length : waiting.length using Nat.strong_induction_on generalizing waiting with
  | _ length' ih =>
      rw [← length]
      by_cases inOne : waiting.length < readSize
      · have room : roomBehind waiting.length = readSize - waiting.length := by
          rw [roomBehind, Nat.mod_eq_of_lt inOne]
        have clean : cutsToken waiting (cString (bytes.take (readSize - waiting.length))) =
            false := by
          rw [openToken_eq_nil_iff] at closed
          unfold cutsToken
          split
          · next before after last first =>
            rw [closed before last]
            rfl
          · rfl
        have string : cString (waiting ++ bytes.take (readSize - waiting.length)) =
            waiting ++ cString (bytes.take (readSize - waiting.length)) := by
          rw [cString, List.takeWhile_append_of_pos]
          · rfl
          · intro byte member
            simpa using noNul byte member
        rw [drain_eq, List.take_append, List.drop_append, List.take_of_length_le inOne.le,
          List.drop_eq_nil_of_le inOne.le, List.nil_append, string, tokens_append_of_clean clean,
          drain_eq waiting, List.take_of_length_le inOne.le, List.drop_eq_nil_of_le inOne.le,
          cString_of_noNul noNul, linesBehind, room, List.append_assoc, List.append_assoc]
        rfl
      · have long : readSize ≤ waiting.length := Nat.le_of_not_lt inOne
        have left : (waiting.drop readSize).length = waiting.length - readSize :=
          List.length_drop
        have closed' : openToken [] (waiting.drop readSize) = [] := by
          rw [openToken_eq_nil_iff] at closed ⊢
          intro byte last
          rw [List.getLast?_drop] at last
          split at last
          · cases last
          · exact closed byte last
        have shorter : (waiting.drop readSize).length < length' := by
          rw [left, ← length, readSize]
          rw [readSize] at long
          omega
        have later := ih _ shorter closed'
          (fun byte member => noNul byte (List.mem_of_mem_drop member)) rfl
        have same : roomBehind (waiting.drop readSize).length = roomBehind waiting.length := by
          rw [roomBehind, roomBehind, left, Nat.mod_eq_sub_mod long]
        rw [linesBehind, same, ← linesBehind] at later
        rw [drain_eq, List.take_append_of_le_length long, List.drop_append_of_le_length long, later,
          drain_eq waiting, List.append_assoc]

/-- A command that is written has a text, and a read ends at a line boundary: the
queue is exhausted, or a newline stands right before or right after the cut. -/
def Channel.Whole (channel : Channel) : Op → Prop
  | .write command => command.text ≠ []
  | .read => cutsToken (channel.queue.take readSize) (channel.queue.drop readSize) = false

instance (channel : Channel) : ∀ op, Decidable (channel.Whole op)
  | .write _ => inferInstanceAs (Decidable (_ ≠ _))
  | .read => inferInstanceAs (Decidable (_ = _))

/-! ## What one step does to the lines -/

/-- The queue holds complete lines without NUL, and no empty line was dispatched. -/
structure Channel.WellFormed (channel : Channel) : Prop where
  closed : openToken [] channel.queue = []
  noNul : ∀ byte ∈ channel.queue, byte ≠ 0
  nonempty : ∀ line ∈ channel.dispatched, line ≠ []

namespace Channel.WellFormed

variable {channel : Channel}

/-- There is no NUL in what is read. -/
theorem cString_take (wellFormed : channel.WellFormed) :
    cString (channel.queue.take readSize) = channel.queue.take readSize := by
  exact cString_of_noNul fun byte member => wellFormed.noNul byte (List.mem_of_mem_take member)

/-- A write keeps the FIFO made of commands. -/
theorem write (wellFormed : channel.WellFormed) (command : Command) :
    (channel.step (.write command)).WellFormed where
  closed := by
    have final : isLineBreak lineFeed = true := rfl
    simp [Channel.step, openToken_append, openToken, final]
  noNul := by
    intro byte member
    simp only [Channel.step, List.mem_append, List.mem_singleton] at member
    rcases member with queued | text | rfl
    · exact wellFormed.noNul byte queued
    · exact command.noNul byte text
    · decide
  nonempty := wellFormed.nonempty

/-- A new command adds its line to those in the queue. -/
theorem write_tokens (wellFormed : channel.WellFormed) (command : Command) :
    tokens (channel.step (.write command)).queue =
      tokens channel.queue ++ flush command.text := by
  have lines : tokens (command.text ++ [lineFeed]) = flush command.text := by
    unfold tokens
    rw [tokensAfter_append_of_noBreak command.oneLine, List.nil_append,
      tokensAfter_break (by rfl)]
    simp [tokens]
  have queued : flush (openToken [] channel.queue) = [] := by rw [wellFormed.closed, flush_nil]
  unfold tokens at lines ⊢
  rw [Channel.step, tokensAfter_append, wellFormed.closed, lines]
  simp [tokensAfter, queued]

/-- A read keeps the FIFO made of commands. -/
theorem read (wellFormed : channel.WellFormed) : (channel.step .read).WellFormed where
  closed := by
    have whole : openToken [] (channel.queue.take readSize ++ channel.queue.drop readSize) =
        [] := by
      rw [List.take_append_drop]
      exact wellFormed.closed
    rw [openToken_eq_nil_iff] at whole ⊢
    intro byte last
    refine whole byte ?_
    simp only [Channel.step, readFifo] at last
    rw [Option.mem_def] at last ⊢
    rw [List.getLast?_append, last]
    rfl
  noNul := fun byte member => wellFormed.noNul byte (List.mem_of_mem_drop member)
  nonempty := by
    intro line member
    simp only [Channel.step, List.mem_append] at member
    rcases member with before | now
    · exact wellFormed.nonempty line before
    · exact ne_nil_of_mem_tokensAfter now

/-- Every step keeps the FIFO made of commands. -/
theorem step (wellFormed : channel.WellFormed) (op : Op) : (channel.step op).WellFormed := by
  cases op with
  | write command => exact wellFormed.write command
  | read => exact wellFormed.read

/-- What a read dispatches and what it leaves, against what was queued. -/
theorem read_lines (wellFormed : channel.WellFormed) :
    (channel.step .read).dispatched = channel.dispatched ++ tokens (channel.queue.take readSize) ∧
      tokens (channel.step .read).queue = tokens (channel.queue.drop readSize) := by
  refine ⟨?_, rfl⟩
  simp only [Channel.step, readFifo]
  rw [wellFormed.cString_take]

end Channel.WellFormed

/-! ## Intact and spoiled channels -/

/-- The lines dispatched and those still queued are the commands written. -/
structure Channel.Intact (channel : Channel) : Prop where
  wellFormed : channel.WellFormed
  lines : channel.dispatched ++ tokens channel.queue = channel.written

/-- Some command was empty, or there are more lines than commands. -/
structure Channel.Spoiled (channel : Channel) : Prop where
  wellFormed : channel.WellFormed
  surplus : [] ∈ channel.written ∨
    channel.written.length < channel.dispatched.length + (tokens channel.queue).length

namespace Channel

/-- A read that takes whole commands keeps everything intact. -/
theorem Intact.step {channel : Channel} (intact : channel.Intact) {op : Op}
    (whole : channel.Whole op) : (channel.step op).Intact := by
  refine ⟨intact.wellFormed.step op, ?_⟩
  cases op with
  | write command =>
      rw [intact.wellFormed.write_tokens, flush_of_ne_nil whole, ← List.append_assoc]
      simp [Channel.step, intact.lines]
  | read =>
      obtain ⟨dispatched, queued⟩ := intact.wellFormed.read_lines
      have joined := tokens_append_of_clean whole
      rw [List.take_append_drop] at joined
      rw [dispatched, queued, List.append_assoc, ← joined]
      exact intact.lines

/-- A read that cuts a command spoils what is dispatched. -/
theorem Intact.spoiled {channel : Channel} (intact : channel.Intact) {op : Op}
    (missed : ¬ channel.Whole op) : (channel.step op).Spoiled := by
  refine ⟨intact.wellFormed.step op, ?_⟩
  cases op with
  | write command =>
      have empty : command.text = [] := not_not.mp missed
      exact .inl (by simp [Channel.step, empty])
  | read =>
      obtain ⟨dispatched, queued⟩ := intact.wellFormed.read_lines
      have cut := length_tokens_of_cut (Bool.of_not_eq_false missed)
      rw [List.take_append_drop] at cut
      have lines := congrArg List.length intact.lines
      refine .inr ?_
      rw [dispatched, queued]
      simp only [List.length_append, Channel.step] at lines ⊢
      omega

/-- What is spoiled stays so. -/
theorem Spoiled.step {channel : Channel} (spoiled : channel.Spoiled) (op : Op) :
    (channel.step op).Spoiled := by
  refine ⟨spoiled.wellFormed.step op, ?_⟩
  cases op with
  | write command =>
      rcases spoiled.surplus with empty | more
      · exact .inl (by simp [Channel.step, empty])
      · by_cases blank : command.text = []
        · exact .inl (by simp [Channel.step, blank])
        · refine .inr ?_
          rw [spoiled.wellFormed.write_tokens, flush_of_ne_nil blank]
          simp only [Channel.step, List.length_append, List.length_singleton]
          omega
  | read =>
      rcases spoiled.surplus with empty | more
      · exact .inl empty
      · obtain ⟨dispatched, queued⟩ := spoiled.wellFormed.read_lines
        refine .inr ?_
        rw [dispatched, queued]
        -- a cut can only add a line
        cases cut : cutsToken (channel.queue.take readSize) (channel.queue.drop readSize) with
        | false =>
            have joined := congrArg List.length (tokens_append_of_clean cut)
            rw [List.take_append_drop] at joined
            simp only [List.length_append, Channel.step] at joined ⊢
            omega
        | true =>
            have joined := length_tokens_of_cut cut
            rw [List.take_append_drop] at joined
            simp only [List.length_append, Channel.step] at joined ⊢
            omega

end Channel

/-- Once the FIFO is drained, the strings passed to `handle_fifo_command` are the
commands written, intact and in order, exactly when no command was empty and
every read ended at a line boundary. -/
theorem framing_exact (ops : List Op)
    (drained : (machine.run machine.initial ops).queue = []) :
    (machine.run machine.initial ops).dispatched = (machine.run machine.initial ops).written ↔
      machine.StepsMeet Channel.Whole machine.initial ops := by
  have start : machine.initial.Intact :=
    { wellFormed := ⟨rfl, by simp [machine], by simp [machine]⟩
      lines := rfl }
  constructor
  · intro same
    have stays : ∀ channel op, channel.Spoiled → (machine.step channel op).Spoiled :=
      fun _ op spoiled => spoiled.step op
    rcases Machine.stepsMeet_or_spoiled Channel.Intact Channel.Spoiled
      (fun _ _ intact whole => intact.step whole) (fun _ _ intact missed => intact.spoiled missed)
      stays ops start with whole | spoiled
    · exact whole
    · rcases spoiled.surplus with empty | more
      · rw [← same] at empty
        exact absurd rfl (spoiled.wellFormed.nonempty [] empty)
      · rw [same, drained] at more
        simp [tokens] at more
  · intro whole
    have intact := Machine.run_of_invariant Channel.Intact
      (fun _ _ intact whole => intact.step whole) start whole
    have lines := intact.lines
    rw [drained] at lines
    simpa [tokens] using lines

/-- A command whose text is ASCII without control characters. -/
def Command.ofAscii (text : List UInt8) (plain : text.all (fun byte => decide (32 ≤ byte)) = true)
    (fits : text.length + 1 ≤ 600) : Command where
  text := text
  noNul := by
    intro byte member zero
    have bound := of_decide_eq_true (List.all_eq_true.mp plain byte member)
    rw [zero] at bound
    exact absurd bound (by decide)
  oneLine := by
    intro byte member
    have bound := of_decide_eq_true (List.all_eq_true.mp plain byte member)
    by_contra isBreak
    rw [Bool.not_eq_false] at isBreak
    simp only [isLineBreak, Bool.or_eq_true, beq_iff_eq] at isBreak
    rcases isBreak with rfl | rfl
    · exact absurd bound (by decide)
    · exact absurd bound (by decide)
  fits := fits

/-- Two short commands read in one go. -/
theorem framing_exact_short :
    (machine.run machine.initial
        [.write (.ofAscii (ascii "TEXT:a") (by decide) (by decide)),
          .write (.ofAscii (ascii "KEY:ENTER") (by decide) (by decide)), .read]).dispatched =
      [ascii "TEXT:a", ascii "KEY:ENTER"] :=
  (framing_exact
    [.write (.ofAscii (ascii "TEXT:a") (by decide) (by decide)),
      .write (.ofAscii (ascii "KEY:ENTER") (by decide) (by decide)), .read] (by decide)).mpr
    (by decide)

/-- What typing 295 letters into the remote keyboard's text box sends. -/
def Command.longText : Command :=
  .ofAscii (ascii "TEXT:" ++ List.replicate 295 97) (by decide +kernel) (by decide +kernel)

/-- The command is read in two pieces: a shorter text, and a second command that
nobody wrote. -/
theorem framing_long_text_split :
    (machine.run machine.initial [.write .longText, .read, .read]).queue = [] ∧
      (machine.run machine.initial [.write .longText, .read, .read]).dispatched =
        [ascii "TEXT:" ++ List.replicate 250 97, List.replicate 45 97] ∧
      (machine.run machine.initial [.write .longText, .read, .read]).dispatched ≠
        (machine.run machine.initial [.write .longText, .read, .read]).written := by
  decide +kernel

end Nookobo.Shim.FifoInput
