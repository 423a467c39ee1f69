import Nookobo.Semantics.Run
import Nookobo.Shim.Timers

/-!
# Timers as their creators know them

A timer belongs to the `SDL_AddTimer` call that created it, not to the slot it
happens to sit in. `Owners` is the pool seen that way: every entry carries the
number of its creation, a returning callback changes the entry it was taken from
and no other, and a removal clears the slot it names. `timers_isolated_exact`
compares the array with it over all interleavings.

The worker writes a callback's verdict back by slot index. The array follows the
owners exactly when a slot whose callback is out has not been given to a newer
timer by the time the callback returns.
-/

namespace Nookobo.Shim.Timers

open Nookobo.Semantics

/-! ## The abstract pool -/

/-- A timer as its creator knows it. -/
structure Entry where
  /-- The number of the `SDL_AddTimer` call that created it. -/
  id : Nat
  callback : Address
  param : Address
  interval : UInt32
  expire : UInt64
deriving DecidableEq, Repr

/-- The array element that stands for an entry. -/
def Entry.timer (entry : Entry) : Timer where
  active := true
  intervalMs := entry.interval
  nextExpireMs := entry.expire
  cb := entry.callback
  param := entry.param

/-- Which timer, if any, each slot belongs to. -/
abbrev Owners := Slot → Option Entry

/-- What a returning callback does to the entry it was taken from: 0 ends it,
any other value is its next interval. -/
def Entry.settle (next : UInt32) (time : UInt64) (entry : Entry) : Option Entry :=
  if next = 0 then none
  else some { entry with interval := next, expire := time + next.toUInt64 }

/-- A callback of the timer `caller` returns; every other entry stays. -/
def Owners.settle (caller : Option Nat) (next : UInt32) (time : UInt64)
    (owners : Owners) : Owners := fun slot =>
  (owners slot).bind fun entry =>
    if some entry.id = caller then entry.settle next time else some entry

/-- An entry is its number and the array element that stands for it. -/
theorem Entry.eq_of_timer_eq {first second : Entry} (id : first.id = second.id)
    (timer : first.timer = second.timer) : first = second := by
  obtain ⟨firstId, callback, param, interval, expire⟩ := first
  obtain ⟨secondId, callback', param', interval', expire'⟩ := second
  simp only [Entry.timer, Timer.mk.injEq, true_and] at timer
  obtain ⟨rfl, rfl, rfl, rfl⟩ := timer
  simp only at id
  subst id
  rfl

/-- On the slot it is taken from, the write-back is what the verdict means. -/
theorem writeBack_settle {slot : Slot} {pool : Pool} {entry : Entry}
    (owned : pool slot = entry.timer) (next : UInt32) (time : UInt64) :
    entry.settle next time = none ∧ (writeBack slot next time pool slot).active = false ∨
      ∃ settled, entry.settle next time = some settled ∧ settled.id = entry.id ∧
        writeBack slot next time pool slot = settled.timer := by
  have active : (pool slot).active = true := by
    rw [owned]
    rfl
  unfold writeBack Entry.settle
  rw [if_pos active]
  by_cases ended : next = 0
  · exact .inl ⟨if_pos ended, by simp [ended]⟩
  · refine .inr ⟨_, if_neg ended, rfl, ?_⟩
    rw [if_neg ended, Function.update_self, owned]
    rfl

/-- A free slot has nothing to settle. -/
theorem Owners.settle_none {owners : Owners} {slot : Slot} (free : owners slot = none)
    (caller : Option Nat) (next : UInt32) (time : UInt64) :
    owners.settle caller next time slot = none := by
  simp [Owners.settle, free]

/-- The entry whose callback returns is settled. -/
theorem Owners.settle_caller {owners : Owners} {slot : Slot} {entry : Entry}
    (owned : owners slot = some entry) {caller : Option Nat} (own : some entry.id = caller)
    (next : UInt32) (time : UInt64) :
    owners.settle caller next time slot = entry.settle next time := by
  simp [Owners.settle, owned, own]

/-- An entry whose callback does not return stays as it is. -/
theorem Owners.settle_other {owners : Owners} {slot : Slot} {entry : Entry}
    (owned : owners slot = some entry) {caller : Option Nat} (other : some entry.id ≠ caller)
    (next : UInt32) (time : UInt64) :
    owners.settle caller next time slot = some entry := by
  simp [Owners.settle, owned, other]

/-- Settling never renames an entry. -/
theorem Owners.settle_origin {owners : Owners} {slot : Slot} {entry : Entry}
    {caller : Option Nat} {next : UInt32} {time : UInt64}
    (settled : owners.settle caller next time slot = some entry) :
    ∃ old, owners slot = some old ∧ old.id = entry.id := by
  obtain ⟨old, owned, becomes⟩ := Option.bind_eq_some_iff.mp settled
  refine ⟨old, owned, ?_⟩
  split at becomes
  · unfold Entry.settle at becomes
    split at becomes
    · exact absurd becomes (by simp)
    · rw [← Option.some.inj becomes]
  · rw [Option.some.inj becomes]

/-! ## The array and its owners side by side -/

/-- The timers of the program, with the entries they should stand for. -/
structure Session where
  system : System := {}
  owners : Owners := fun _ => none
  /-- How many timers have been created. -/
  created : Nat := 0
  /-- The timer whose callback the worker has taken. -/
  caller : Option Nat := none

namespace Session

/-- Note whose callback the worker has just taken. -/
def recordCaller (session : Session) : Session :=
  { session with
    caller :=
      match session.system.worker with
      | .sleeping => none
      | .taken call | .running call => (session.owners call.slot).map Entry.id }

/-- A step, with what it should do to the entries. -/
def step (session : Session) (label : Label) : Session :=
  let next := { session with system := session.system.step label }
  match label with
  | .add interval callback param time =>
      match (addTimer interval callback param time session.system.pool).2 with
      | none => next
      | some slot =>
          { next with
            owners := Function.update session.owners slot
              (some ⟨session.created, callback, param, interval, time + interval.toUInt64⟩)
            created := session.created + 1 }
  | .remove (.slot slot) => { next with owners := Function.update session.owners slot none }
  | .remove .null | .remove .foreign => next
  | .wake _ =>
      match session.system.worker with
      | .sleeping => next.recordCaller
      | .taken _ | .running _ => next
  | .enter => next
  | .finish interval time =>
      match session.system.worker with
      | .running _ =>
          recordCaller
            { next with owners := session.owners.settle session.caller interval time }
      | .sleeping | .taken _ => next

/-- The slot holds the timer of its owner, and nothing without one. -/
def Holds (session : Session) (slot : Slot) : Prop :=
  match session.owners slot with
  | none => (session.system.pool slot).active = false
  | some entry => session.system.pool slot = entry.timer

/-- Every timer is as its own creation, callback and removal made it. -/
def Isolated (session : Session) : Prop := ∀ slot, session.Holds slot

/-- The slot is free, or holds the timer whose callback is out, or the write-back
assigns what is there already. -/
def Home (session : Session) (slot : Slot) (next : UInt32) (time : UInt64) : Prop :=
  match session.owners slot with
  | none => True
  | some entry => some entry.id = session.caller ∨ entry.settle next time = some entry

/-- A returning callback finds no newer timer in its slot. -/
def ReturnsHome (session : Session) (label : Label) : Prop :=
  match label, session.system.worker with
  | .finish next time, .running call => session.Home call.slot next time
  | _, _ => True

instance (session : Session) (slot : Slot) : Decidable (session.Holds slot) := by
  unfold Holds
  exact match session.owners slot with
    | none => inferInstanceAs (Decidable (_ = _))
    | some _ => inferInstanceAs (Decidable (_ = _))

instance (session : Session) : Decidable session.Isolated :=
  inferInstanceAs (Decidable (∀ slot, session.Holds slot))

end Session

/-- The pool from its static initialisation, over any interleaving of client
calls and worker steps. -/
def machine : Machine Session Label where
  initial := {}
  step := Session.step

/-! ## The invariant -/

namespace Session

/-- Creation numbers are used once: each sits in one slot, below the next one. -/
structure Numbered (owners : Owners) (created : Nat) : Prop where
  bound : ∀ slot entry, owners slot = some entry → entry.id < created
  unique : ∀ slot entry slot' entry', owners slot = some entry → owners slot' = some entry' →
    entry.id = entry'.id → slot = slot'

/-- Entries that only disappear or change in place keep their numbers. -/
theorem Numbered.of_origin {owners next : Owners} {created : Nat}
    (numbered : Numbered owners created)
    (origin : ∀ slot entry, next slot = some entry →
      ∃ old, owners slot = some old ∧ old.id = entry.id) : Numbered next created := by
  constructor
  · intro slot entry owned
    obtain ⟨old, oldOwned, same⟩ := origin slot entry owned
    have bound := numbered.bound slot old oldOwned
    omega
  · intro slot entry slot' entry' owned owned' same
    obtain ⟨old, oldOwned, oldSame⟩ := origin slot entry owned
    obtain ⟨old', oldOwned', oldSame'⟩ := origin slot' entry' owned'
    exact numbered.unique slot old slot' old' oldOwned oldOwned' (by omega)

/-- After an insertion an entry is the new one, or was there before under an older
number. -/
theorem Numbered.origin_insert {owners : Owners} {created : Nat}
    (numbered : Numbered owners created) {slot other : Slot} {added entry : Entry}
    (owned : Function.update owners slot (some added) other = some entry) :
    other = slot ∧ entry = added ∨ owners other = some entry ∧ entry.id < created := by
  by_cases here : other = slot
  · subst here
    simp only [Function.update_self, Option.some.injEq] at owned
    exact .inl ⟨rfl, owned.symm⟩
  · rw [Function.update_of_ne here] at owned
    exact .inr ⟨owned, numbered.bound other entry owned⟩

/-- A new entry gets a number of its own. -/
theorem Numbered.insert {owners : Owners} {created : Nat} (numbered : Numbered owners created)
    (slot : Slot) {added : Entry} (fresh : added.id = created) :
    Numbered (Function.update owners slot (some added)) (created + 1) := by
  constructor
  · intro other entry owned
    rcases numbered.origin_insert owned with ⟨_, rfl⟩ | ⟨_, old⟩
    · omega
    · omega
  · intro first entry second entry' owned owned' same
    rcases numbered.origin_insert owned with ⟨here, rfl⟩ | ⟨before, old⟩
    · rcases numbered.origin_insert owned' with ⟨here', _⟩ | ⟨_, old'⟩
      · exact here.trans here'.symm
      · omega
    · rcases numbered.origin_insert owned' with ⟨_, rfl⟩ | ⟨before', _⟩
      · omega
      · exact numbered.unique first entry second entry' before before' same

/-- The array follows its owners, and the timer whose callback is out can only be
found in the slot of the call. -/
structure InStep (session : Session) : Prop where
  isolated : session.Isolated
  numbered : Numbered session.owners session.created
  caller : ∀ id, session.caller = some id → id < session.created
  inFlight : ∀ call, session.system.worker = .taken call ∨
      session.system.worker = .running call →
    ∀ slot entry, session.owners slot = some entry → some entry.id = session.caller →
      slot = call.slot

/-- A free slot holds what it should when its array element is inactive. -/
theorem holds_none {session : Session} {slot : Slot} (free : session.owners slot = none) :
    session.Holds slot ↔ (session.system.pool slot).active = false := by
  simp [Holds, free]

/-- An owned slot holds what it should when its array element stands for the entry. -/
theorem holds_some {session : Session} {slot : Slot} {entry : Entry}
    (owned : session.owners slot = some entry) :
    session.Holds slot ↔ session.system.pool slot = entry.timer := by
  simp [Holds, owned]

/-- Slots a step leaves alone keep what they hold. -/
theorem holds_congr {session next : Session} {slot : Slot}
    (owner : next.owners slot = session.owners slot)
    (timer : next.system.pool slot = session.system.pool slot) :
    next.Holds slot ↔ session.Holds slot := by
  unfold Holds
  rw [owner, timer]

/-- Noting the caller is sound whenever the identities are good. -/
theorem recordCaller_inStep {session : Session} (isolated : session.Isolated)
    (numbered : Numbered session.owners session.created) : session.recordCaller.InStep := by
  have called : ∀ call, session.system.worker = .taken call ∨
      session.system.worker = .running call →
      session.recordCaller.caller = (session.owners call.slot).map Entry.id := by
    rintro call (worker | worker) <;> simp [recordCaller, worker]
  refine ⟨isolated, numbered, ?_, ?_⟩
  · intro id taken
    cases worker : session.system.worker with
    | sleeping => simp [recordCaller, worker] at taken
    | taken call | running call =>
        simp only [recordCaller, worker, Option.map_eq_some_iff] at taken
        obtain ⟨entry, owned, rfl⟩ := taken
        exact numbered.bound call.slot entry owned
  · intro call busy slot entry owned same
    rw [called call busy] at same
    obtain ⟨other, otherOwned, otherSame⟩ := Option.map_eq_some_iff.mp same.symm
    exact numbered.unique slot entry call.slot other owned otherOwned otherSame.symm

/-! ## One lemma for each step -/

/-- A new timer keeps array and entries in step. -/
theorem InStep.add {session : Session} (inStep : session.InStep) (interval : UInt32)
    (callback param : Address) (time : UInt64) :
    (session.step (.add interval callback param time)).InStep := by
  rcases addTimer_cases interval callback param time session.system.pool with
    refused | ⟨slot, _, added⟩
  · have same : session.step (.add interval callback param time) = session := by
      simp [step, System.step, refused]
    rw [same]
    exact inStep
  · have next : session.step (.add interval callback param time) =
        { system :=
            { session.system with
              pool := Function.update session.system.pool slot
                ⟨true, interval, time + interval.toUInt64, callback, param⟩ }
          owners := Function.update session.owners slot
            (some ⟨session.created, callback, param, interval, time + interval.toUInt64⟩)
          created := session.created + 1
          caller := session.caller } := by
      simp [step, System.step, added]
    rw [next]
    refine ⟨?_, inStep.numbered.insert slot rfl, ?_, ?_⟩
    · intro other
      by_cases here : other = slot
      · subst here
        simp [Holds, Entry.timer]
      · exact (holds_congr (by simp [here]) (by simp [here])).mpr (inStep.isolated other)
    · intro id out
      exact Nat.lt_succ_of_lt (inStep.caller id out)
    · intro call busy other entry owned same
      rcases inStep.numbered.origin_insert owned with ⟨_, rfl⟩ | ⟨before, _⟩
      · have old := inStep.caller session.created same.symm
        omega
      · exact inStep.inFlight call busy other entry before same

/-- A removal keeps array and entries in step. -/
theorem InStep.remove {session : Session} (inStep : session.InStep) (id : TimerId) :
    (session.step (.remove id)).InStep := by
  cases id with
  | null => exact inStep
  | foreign => exact inStep
  | slot slot =>
      have origin : ∀ other entry,
          (session.step (.remove (.slot slot))).owners other = some entry →
            session.owners other = some entry := by
        intro other entry owned
        simp only [step] at owned
        by_cases here : other = slot
        · subst here
          simp at owned
        · rwa [Function.update_of_ne here] at owned
      refine ⟨?_, ?_, inStep.caller, ?_⟩
      · intro other
        by_cases here : other = slot
        · subst here
          simp [Holds, step, System.step, removeTimer]
        · refine (holds_congr ?_ ?_).mpr (inStep.isolated other)
          · simp [step, here]
          · simp [step, System.step, removeTimer, here]
      · exact inStep.numbered.of_origin fun other entry owned =>
          ⟨entry, origin other entry owned, rfl⟩
      · intro call busy other entry owned same
        exact inStep.inFlight call busy other entry (origin other entry owned) same

/-- The worker's waking keeps array and entries in step. -/
theorem InStep.wake {session : Session} (inStep : session.InStep) (now : UInt64) :
    (session.step (.wake now)).InStep := by
  cases worker : session.system.worker with
  | sleeping =>
      simp only [step, System.step, worker]
      exact recordCaller_inStep inStep.isolated inStep.numbered
  | taken call | running call =>
      simp only [step, System.step, worker]
      exact inStep

/-- The worker's call keeps array and entries in step. -/
theorem InStep.enter {session : Session} (inStep : session.InStep) :
    (session.step .enter).InStep := by
  cases worker : session.system.worker with
  | sleeping | running call =>
      simp only [step, System.step, worker]
      exact inStep
  | taken call =>
      simp only [step, System.step, worker]
      refine { inStep with inFlight := ?_ }
      intro other busy
      simp only [reduceCtorEq, Worker.running.injEq, false_or] at busy
      exact inStep.inFlight other (.inl (busy ▸ worker))

/-- Outside the slot of the call, a returning callback changes neither the array
nor the owners. -/
theorem InStep.settle_elsewhere {session : Session} (inStep : session.InStep) {call : Call}
    (worker : session.system.worker = .running call) {slot : Slot}
    (elsewhere : slot ≠ call.slot) (next : UInt32) (time : UInt64) :
    session.owners.settle session.caller next time slot = session.owners slot := by
  cases owned : session.owners slot with
  | none => exact Owners.settle_none owned _ next time
  | some entry =>
      refine Owners.settle_other owned (fun own => ?_) next time
      exact elsewhere (inStep.inFlight call (.inr worker) slot entry owned own)

/-- A callback that returns to its own timer keeps array and entries in step. -/
theorem InStep.finish {session : Session} (inStep : session.InStep) {next : UInt32}
    {time : UInt64} (home : session.ReturnsHome (.finish next time)) :
    (session.step (.finish next time)).InStep := by
  cases worker : session.system.worker with
  | sleeping | taken call =>
      simp only [step, System.step, worker]
      exact inStep
  | running call =>
      simp only [ReturnsHome, worker] at home
      simp only [step, System.step, worker]
      refine recordCaller_inStep ?_ ?_
      · intro slot
        by_cases here : slot = call.slot
        · subst here
          have held := inStep.isolated call.slot
          unfold Home at home
          cases owned : session.owners call.slot with
          | none =>
              have inactive := (holds_none owned).mp held
              rw [holds_none (Owners.settle_none owned _ next time)]
              dsimp only
              rw [writeBack_inactive inactive]
              exact inactive
          | some entry =>
              have timer := (holds_some owned).mp held
              rw [owned] at home
              have settles : session.owners.settle session.caller next time call.slot =
                  entry.settle next time := by
                by_cases own : some entry.id = session.caller
                · exact Owners.settle_caller owned own next time
                · rw [Owners.settle_other owned own, home.resolve_left own]
              rcases writeBack_settle timer next time with
                ⟨ended, inactive⟩ | ⟨settled, becomes, _, written⟩
              · exact (holds_none (settles.trans ended)).mpr inactive
              · exact (holds_some (settles.trans becomes)).mpr written
        · refine (holds_congr ?_ ?_).mpr (inStep.isolated slot)
          · exact inStep.settle_elsewhere worker here next time
          · exact writeBack_other here next time _
      · exact inStep.numbered.of_origin fun slot entry owned => Owners.settle_origin owned

/-- Every step whose callbacks return home keeps array and entries in step. -/
theorem InStep.step {session : Session} (inStep : session.InStep) (label : Label)
    (home : session.ReturnsHome label) : (session.step label).InStep := by
  cases label with
  | add interval callback param time => exact inStep.add interval callback param time
  | remove id => exact inStep.remove id
  | wake now => exact inStep.wake now
  | enter => exact inStep.enter
  | finish next time => exact inStep.finish home

/-- A timer in the abstract pool stays as it is until it is removed or its own
callback returns, which settles it. -/
theorem InStep.persists {session : Session} (inStep : session.InStep) {slot : Slot}
    {entry : Entry} (owned : session.owners slot = some entry) (label : Label) :
    (session.step label).owners slot = some entry ∨ label = .remove (.slot slot) ∨
      ∃ next time, label = .finish next time ∧ some entry.id = session.caller ∧
        (session.step label).owners slot = entry.settle next time := by
  cases label with
  | add interval callback param time =>
      have timer := (holds_some owned).mp (inStep.isolated slot)
      rcases addTimer_cases interval callback param time session.system.pool with
        refused | ⟨free, inactive, added⟩
      · exact .inl (by simpa [Session.step, refused] using owned)
      · have different : slot ≠ free := by
          rintro rfl
          rw [timer] at inactive
          exact absurd inactive (by simp [Entry.timer])
        exact .inl (by simpa [Session.step, added, different] using owned)
  | remove id =>
      cases id with
      | null | foreign => exact .inl owned
      | slot removed =>
          by_cases here : slot = removed
          · exact .inr (.inl (by rw [here]))
          · exact .inl (by simpa [Session.step, here] using owned)
  | wake now =>
      cases worker : session.system.worker with
      | sleeping | taken call | running call =>
          exact .inl (by simpa [Session.step, worker, recordCaller] using owned)
  | enter => exact .inl owned
  | finish next time =>
      cases worker : session.system.worker with
      | sleeping | taken call =>
          exact .inl (by simpa [Session.step, worker] using owned)
      | running call =>
          have settles : (session.step (.finish next time)).owners slot =
              session.owners.settle session.caller next time slot := by
            simp [Session.step, worker, recordCaller]
          rw [settles]
          by_cases own : some entry.id = session.caller
          · exact .inr (.inr ⟨next, time, rfl, own, Owners.settle_caller owned own next time⟩)
          · exact .inl (Owners.settle_other owned own next time)

/-- A verdict that meets a newer timer in its slot changes or ends that timer. -/
theorem InStep.broken {session : Session} (inStep : session.InStep) {label : Label}
    (missed : ¬ session.ReturnsHome label) : ¬ (session.step label).Isolated := by
  cases label with
  | add _ _ _ _ | remove _ | wake _ | enter => exact absurd trivial missed
  | finish next time =>
      cases worker : session.system.worker with
      | sleeping | taken call => exact absurd (by simp [ReturnsHome, worker]) missed
      | running call =>
          simp only [ReturnsHome, worker, Home] at missed
          cases owned : session.owners call.slot with
          | none => exact absurd (by simp [owned]) missed
          | some entry =>
              simp only [owned, not_or] at missed
              obtain ⟨other, changed⟩ := missed
              have timer := (holds_some owned).mp (inStep.isolated call.slot)
              have kept := Owners.settle_other owned other next time
              intro isolated
              have held := isolated call.slot
              simp only [Session.step, System.step, worker] at held
              rw [holds_some kept] at held
              simp only [recordCaller] at held
              rcases writeBack_settle timer next time with
                ⟨_, inactive⟩ | ⟨settled, becomes, sameId, written⟩
              · rw [held] at inactive
                exact absurd inactive (by simp [Entry.timer])
              · rw [held] at written
                have same := Entry.eq_of_timer_eq sameId.symm written
                exact changed (becomes.trans (by rw [same]))

end Session

/-- Over every interleaving of clients and worker, each timer stays as its own
creation, its own callback and its own removal make it, exactly when every
callback returns to a slot that no newer timer has taken. -/
theorem timers_isolated_exact (labels : List Label) :
    machine.Always Session.Isolated machine.initial labels ↔
      machine.StepsMeet Session.ReturnsHome machine.initial labels := by
  have start : machine.initial.InStep := by
    refine ⟨fun _ => rfl, ⟨?_, ?_⟩, ?_, ?_⟩
    · intro slot entry owned
      exact absurd owned (by simp [machine])
    · intro slot entry slot' entry' owned
      exact absurd owned (by simp [machine])
    · intro id out
      exact absurd out (by simp [machine])
    · intro call busy
      exact absurd busy (by simp [machine])
  refine Machine.always_iff_stepsMeet_of_all Session.InStep ?_ ?_ ?_ start labels
  · intro session inStep
    exact inStep.isolated
  · intro session label inStep home
    exact inStep.step label home
  · intro session label inStep missed
    exact inStep.broken missed

/-- Timer 0 is due and its callback has been entered; it is removed, and the
client adds another timer, which gets the slot. The first callback returns 0 and
takes the new timer with it. -/
theorem timers_new_timer_lost :
    ¬ machine.Always Session.Isolated machine.initial
        [.add 10 1 0 1000, .wake 1010, .enter, .remove (.slot 0), .add 500 2 0 1012,
          .finish 0 1015] := by
  decide

end Nookobo.Shim.Timers
