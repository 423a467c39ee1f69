import Mathlib.Data.List.FinRange
import Mathlib.Logic.Function.Basic

/-!
# The timer pool of the SDL shim

`g_timers` is a static array of 16 entries under one mutex. Client threads add
and remove timers; one worker thread scans the array, drops the mutex around a
callback that is due and writes the callback's verdict back by slot index.

Every section under the mutex is one step. The worker's position between its
sections is part of the state: the callback has been copied out (`taken`) or has
been entered (`running`). Clock readings and callback results are part of the
label of a step.
-/

namespace Nookobo.Shim.Timers

/-- `MAX_TIMERS`. -/
abbrev maxTimers : Nat := 16

/-- A place of the pool. -/
abbrev Slot := Fin maxTimers

/-- An address of the client, 0 being `NULL`. -/
abbrev Address := Nat

/-- One `struct SDL_TimerID_t`; static storage starts zeroed. -/
structure Timer where
  active : Bool := false
  intervalMs : UInt32 := 0
  nextExpireMs : UInt64 := 0
  cb : Address := 0
  param : Address := 0
deriving DecidableEq, Repr

/-- The array `g_timers`. -/
abbrev Pool := Slot → Timer

/-! ## Client calls -/

/-- The slot `SDL_AddTimer` picks: the first one that is not active. -/
def firstFree (pool : Pool) : Option Slot :=
  (List.finRange maxTimers).find? fun slot => !(pool slot).active

/-- `SDL_AddTimer`, with the value of `get_time_ms` inside it. -/
def addTimer (interval : UInt32) (callback param : Address) (time : UInt64) (pool : Pool) :
    Pool × Option Slot :=
  if callback = 0 then (pool, none)
  else
    match firstFree pool with
    | none => (pool, none)
    | some slot =>
        (Function.update pool slot
          { active := true
            intervalMs := interval
            nextExpireMs := time + interval.toUInt64
            cb := callback
            param := param },
          some slot)

/-- `SDL_AddTimer` refuses, or fills one slot that was not active. -/
theorem addTimer_cases (interval : UInt32) (callback param : Address) (time : UInt64)
    (pool : Pool) :
    addTimer interval callback param time pool = (pool, none) ∨
      ∃ slot, (pool slot).active = false ∧
        addTimer interval callback param time pool =
          (Function.update pool slot
            ⟨true, interval, time + interval.toUInt64, callback, param⟩, some slot) := by
  unfold addTimer
  split
  · exact .inl rfl
  · cases free : firstFree pool with
    | none => exact .inl rfl
    | some slot =>
        have inactive := List.find?_some free
        exact .inr ⟨slot, by simpa using inactive, rfl⟩

/-- The argument of `SDL_RemoveTimer`: `NULL`, an element of the array, or an
address outside it. -/
inductive TimerId where
  | null
  | slot (slot : Slot)
  | foreign
deriving DecidableEq, Repr

/-- `SDL_RemoveTimer`: the timer its argument points at becomes inactive. -/
def removeTimer (id : TimerId) (pool : Pool) : Pool × Bool :=
  match id with
  | .slot slot =>
      (Function.update pool slot { pool slot with active := false, cb := 0 }, true)
  | .null | .foreign => (pool, false)

/-! ## The worker -/

/-- What the worker has copied out of a slot before it drops the mutex. -/
structure Call where
  slot : Slot
  /-- The clock reading of the scan the call belongs to. -/
  now : UInt64
  cb : Address
  param : Address
  interval : UInt32
deriving DecidableEq, Repr

/-- Where the timer thread stands. -/
inductive Worker where
  | sleeping
  /-- The mutex is dropped and the callback is not yet entered. -/
  | taken (call : Call)
  | running (call : Call)
deriving DecidableEq, Repr

/-- The timer is to be called. -/
def Timer.due (now : UInt64) (timer : Timer) : Bool :=
  timer.active && timer.cb != 0 && now ≥ timer.nextExpireMs

/-- The rest of the `for` loop from index `start`: the worker stops at the first
timer that is due, or reaches the end and goes back to sleep. -/
def scanFrom (start : Nat) (now : UInt64) (pool : Pool) : Worker :=
  match (List.finRange maxTimers).find? fun slot =>
      decide (start ≤ slot.val) && (pool slot).due now with
  | none => .sleeping
  | some slot =>
      .taken ⟨slot, now, (pool slot).cb, (pool slot).param, (pool slot).intervalMs⟩

/-- The write-back after a callback, with the value of `get_time_ms` inside it. -/
def writeBack (slot : Slot) (next : UInt32) (time : UInt64) (pool : Pool) : Pool :=
  if (pool slot).active then
    if next = 0 then
      Function.update pool slot { pool slot with active := false, cb := 0 }
    else
      Function.update pool slot
        { pool slot with intervalMs := next, nextExpireMs := time + next.toUInt64 }
  else pool

/-- A write-back leaves the other slots alone. -/
theorem writeBack_other {slot other : Slot} (different : other ≠ slot) (next : UInt32)
    (time : UInt64) (pool : Pool) : writeBack slot next time pool other = pool other := by
  unfold writeBack
  split
  · split
    · exact Function.update_of_ne different _ _
    · exact Function.update_of_ne different _ _
  · rfl

/-- A slot that was removed meanwhile is left alone. -/
theorem writeBack_inactive {slot : Slot} {pool : Pool} (inactive : (pool slot).active = false)
    (next : UInt32) (time : UInt64) : writeBack slot next time pool = pool := by
  simp [writeBack, inactive]

/-! ## The system -/

/-- The pool, and the thread that works on it. -/
structure System where
  pool : Pool := fun _ => {}
  worker : Worker := .sleeping

/-- One step of a client or of the worker. -/
inductive Label where
  | add (interval : UInt32) (callback param : Address) (time : UInt64)
  | remove (id : TimerId)
  /-- The worker wakes up, reads the clock and scans from the first slot. -/
  | wake (now : UInt64)
  | enter
  /-- The callback returns `next`; the worker writes back and scans on. -/
  | finish (next : UInt32) (time : UInt64)
deriving DecidableEq, Repr

/-- A step that is not enabled changes nothing. -/
def System.step (system : System) : Label → System
  | .add interval callback param time =>
      { system with pool := (addTimer interval callback param time system.pool).1 }
  | .remove id => { system with pool := (removeTimer id system.pool).1 }
  | .wake now =>
      match system.worker with
      | .sleeping => { system with worker := scanFrom 0 now system.pool }
      | .taken _ | .running _ => system
  | .enter =>
      match system.worker with
      | .taken call => { system with worker := .running call }
      | .sleeping | .running _ => system
  | .finish next time =>
      match system.worker with
      | .running call =>
          let pool := writeBack call.slot next time system.pool
          { pool := pool, worker := scanFrom (call.slot.val + 1) call.now pool }
      | .sleeping | .taken _ => system

end Nookobo.Shim.Timers
