import Nookobo.Semantics.Run
import Nookobo.Shim.Timers

/-!
# Timers after their removal

Whoever removes a timer expects that its function is not called with its parameter
any more. The worker copies both out of the array, drops the mutex and calls; a removal
in between comes too late. `Watch` records which functions and parameters have been
removed and whether one of them was called all the same; `removal_exact` says which
removals keep the promise whatever the worker does next.
-/

namespace Nookobo.Shim.Timers

open Nookobo.Semantics

/-- The function of a timer with its parameter. -/
def Timer.callee (timer : Timer) : Address × Address := (timer.cb, timer.param)

/-- The function that is about to be called, with its parameter. -/
def Call.callee (call : Call) : Address × Address := (call.cb, call.param)

/-- The worker's own steps. -/
def Label.ofWorker : Label → Bool
  | .wake _ | .enter | .finish _ _ => true
  | .add _ _ _ _ | .remove _ => false

/-! ## What the worker picks -/

/-- The worker's copy of a timer. -/
def callAt (slot : Slot) (now : UInt64) (pool : Pool) : Call :=
  ⟨slot, now, (pool slot).cb, (pool slot).param, (pool slot).intervalMs⟩

/-- The scan finds a due timer from where it starts, or sleeps. -/
theorem scanFrom_cases (start : Nat) (now : UInt64) (pool : Pool) :
    scanFrom start now pool = .sleeping ∨
      ∃ slot : Slot, start ≤ slot.val ∧ (pool slot).due now = true ∧
        scanFrom start now pool = .taken (callAt slot now pool) := by
  unfold scanFrom
  split
  · exact .inl rfl
  · next slot found =>
      have picked := List.find?_some found
      rw [Bool.and_eq_true, decide_eq_true_iff] at picked
      exact .inr ⟨slot, picked.1, picked.2, rfl⟩

/-- A scan does not pass a timer that is due. -/
theorem scanFrom_stops (start : Nat) {now : UInt64} {pool : Pool} {target : Slot}
    (ahead : start ≤ target.val) (due : (pool target).due now = true) :
    ∃ slot : Slot, start ≤ slot.val ∧ slot.val ≤ target.val ∧
      scanFrom start now pool = .taken (callAt slot now pool) := by
  have stops : (decide (start ≤ target.val) && (pool target).due now) = true := by
    rw [Bool.and_eq_true, decide_eq_true_iff]
    exact ⟨ahead, due⟩
  cases found : (List.finRange maxTimers).find? fun slot =>
      decide (start ≤ slot.val) && (pool slot).due now with
  | none => exact absurd stops (List.find?_eq_none.mp found target (List.mem_finRange target))
  | some slot =>
      obtain ⟨picked, index, inside, here, earlier⟩ := List.find?_eq_some_iff_getElem.mp found
      rw [Bool.and_eq_true, decide_eq_true_iff] at picked
      refine ⟨slot, picked.1, ?_, ?_⟩
      · by_contra beyond
        have index_eq : slot.val = index := by
          rw [← here]
          simp
        have passed := earlier target.val (by omega)
        simp [stops] at passed
      · rw [scanFrom, found]
        rfl

/-- The write-back of a callback that goes on keeps every timer's state and callee. -/
theorem writeBack_one (slot other : Slot) (time : UInt64) (pool : Pool) :
    (writeBack slot 1 time pool other).active = (pool other).active ∧
      (writeBack slot 1 time pool other).callee = (pool other).callee := by
  by_cases same : other = slot
  · subst same
    unfold writeBack
    split
    · rw [if_neg (by decide), Function.update_self]
      exact ⟨rfl, rfl⟩
    · exact ⟨rfl, rfl⟩
  · rw [writeBack_other same]
    exact ⟨rfl, rfl⟩

/-- A write-back never changes the callee of a timer that stays active. -/
theorem writeBack_callee {slot other : Slot} {next : UInt32} {time : UInt64} {pool : Pool}
    (active : (writeBack slot next time pool other).active = true) :
    (pool other).active = true ∧
      (writeBack slot next time pool other).callee = (pool other).callee := by
  by_cases same : other = slot
  · subst same
    unfold writeBack at active ⊢
    split_ifs at active ⊢ with running ended
    · simp at active
    · rw [Function.update_self]
      exact ⟨running, rfl⟩
    · exact ⟨active, rfl⟩
  · rw [writeBack_other same] at active ⊢
    exact ⟨active, rfl⟩

/-- At the end of time every active timer with a callback is due. -/
theorem due_last {timer : Timer} (active : timer.active = true) (callable : timer.cb ≠ 0) :
    timer.due 0xFFFFFFFFFFFFFFFF = true := by
  have early : timer.nextExpireMs ≤ 0xFFFFFFFFFFFFFFFF := by
    rw [UInt64.le_iff_toNat_le]
    have limit := timer.nextExpireMs.toNat_lt
    change timer.nextExpireMs.toNat ≤ 18446744073709551615
    omega
  simp [Timer.due, active, callable, early]

/-- An active timer after `SDL_AddTimer` is an old one or the new one. -/
theorem active_addTimer {interval : UInt32} {callback param : Address} {time : UInt64}
    {pool : Pool} {slot : Slot}
    (active : ((addTimer interval callback param time pool).1 slot).active = true) :
    (pool slot).active = true ∧ (addTimer interval callback param time pool).1 slot = pool slot ∨
      callback ≠ 0 ∧
        ((addTimer interval callback param time pool).1 slot).callee = (callback, param) := by
  by_cases refused : callback = 0
  · have unchanged : addTimer interval callback param time pool = (pool, none) := by
      simp [addTimer, refused]
    rw [unchanged] at active ⊢
    exact .inl ⟨active, rfl⟩
  · rcases addTimer_cases interval callback param time pool with full | ⟨free, _, filled⟩
    · rw [full] at active ⊢
      exact .inl ⟨active, rfl⟩
    · rw [filled] at active ⊢
      by_cases here : slot = free
      · subst here
        refine .inr ⟨refused, ?_⟩
        simp only [Function.update_self]
        rfl
      · simp only [Function.update_of_ne here] at active ⊢
        exact .inl ⟨active, trivial⟩

/-- An active timer after `SDL_RemoveTimer` was active before and is not the one
named. -/
theorem active_removeTimer {id : TimerId} {pool : Pool} {slot : Slot}
    (active : ((removeTimer id pool).1 slot).active = true) :
    id ≠ .slot slot ∧ (pool slot).active = true ∧ (removeTimer id pool).1 slot = pool slot := by
  cases id with
  | null => exact ⟨by simp, active, rfl⟩
  | foreign => exact ⟨by simp, active, rfl⟩
  | slot named =>
      by_cases here : slot = named
      · subst here
        simp [removeTimer] at active
      · simp only [removeTimer, Function.update_of_ne here] at active ⊢
        refine ⟨?_, active, trivial⟩
        intro same
        exact here (TimerId.slot.inj same).symm

/-! ## Removals under observation -/

/-- The timers under observation. -/
structure Watch where
  system : System := {}
  /-- The callees of removed timers that no `SDL_AddTimer` has named since. -/
  removed : List (Address × Address) := []
  /-- Whether a callback started while its callee was removed. -/
  stale : Bool := false

namespace Watch

/-- What `SDL_RemoveTimer` is about to remove: the timer its argument points at, if one
is active there. -/
def removes (id : TimerId) (pool : Pool) : List (Address × Address) :=
  match id with
  | .slot slot => if (pool slot).active then [(pool slot).callee] else []
  | .null | .foreign => []

/-- A step, with what it removes and calls. -/
def step (watch : Watch) (label : Label) : Watch where
  system := watch.system.step label
  removed :=
    match label with
    | .add _ callback param _ =>
        watch.removed.filter fun callee => decide (callee ≠ (callback, param))
    | .remove id => removes id watch.system.pool ++ watch.removed
    | .wake _ | .enter | .finish _ _ => watch.removed
  stale :=
    match label, watch.system.worker with
    | .enter, .taken call => watch.stale || decide (call.callee ∈ watch.removed)
    | _, _ => watch.stale

/-- The timers from their start, over any calls and any steps of the worker. -/
def machine : Machine Watch Label where
  initial := {}
  step := step

/-- No removed callee has been called, and none will be however the worker goes on. -/
def Kept (watch : Watch) : Prop :=
  ∀ more : List Label, (∀ label ∈ more, label.ofWorker = true) →
    (machine.run watch more).stale = false

/-- A removal in time: the worker is not about to call the removed callee, and no other
active timer has the same one. -/
def RemovedInTime (watch : Watch) : Label → Prop
  | .remove id =>
      ∀ callee ∈ removes id watch.system.pool,
        (∀ call, watch.system.worker = .taken call → call.callee ≠ callee) ∧
          ∀ slot, id ≠ .slot slot → (watch.system.pool slot).active = true →
            (watch.system.pool slot).callee ≠ callee
  | _ => True

/-- Nothing that the worker can still call has been removed. -/
structure Clean (watch : Watch) : Prop where
  fresh : watch.stale = false
  callable : ∀ slot, (watch.system.pool slot).active = true → (watch.system.pool slot).cb ≠ 0
  inPool : ∀ slot, (watch.system.pool slot).active = true →
    (watch.system.pool slot).callee ∉ watch.removed
  inWorker : ∀ call, watch.system.worker = .taken call → call.callee ∉ watch.removed

/-- Nothing has been removed at the start. -/
theorem clean_initial : machine.initial.Clean where
  fresh := rfl
  callable := by
    intro slot active
    cases active
  inPool := by
    intro slot active
    cases active
  inWorker := by
    intro call taken
    cases taken

/-! ### A removal in time keeps the promise -/

/-- What the worker copies out of a clean array is clean. -/
theorem Clean.scan {watch : Watch} (clean : watch.Clean) {start : Nat} {now : UInt64} {call : Call}
    (taken : scanFrom start now watch.system.pool = .taken call) :
    call.callee ∉ watch.removed := by
  rcases scanFrom_cases start now watch.system.pool with sleeps | ⟨slot, _, due, picks⟩
  · rw [sleeps] at taken
    cases taken
  · rw [picks] at taken
    cases taken
    have active : (watch.system.pool slot).active = true := by
      simp only [Timer.due, Bool.and_eq_true] at due
      exact due.1.1
    exact clean.inPool slot active

/-- A new timer is clean: its callee is not removed any more. -/
theorem Clean.add {watch : Watch} (clean : watch.Clean) (interval : UInt32)
    (callback param : Address) (time : UInt64) :
    (watch.step (.add interval callback param time)).Clean := by
  have fewer : ∀ callee ∈ (watch.step (.add interval callback param time)).removed,
      callee ∈ watch.removed ∧ callee ≠ (callback, param) := by
    intro callee member
    simpa [step] using member
  refine ⟨clean.fresh, ?_, ?_, ?_⟩
  · intro slot active
    rcases active_addTimer active with ⟨before, same⟩ | ⟨callable, callee_eq⟩
    · simp only [step, System.step, same]
      exact clean.callable slot before
    · intro null
      exact callable ((congrArg Prod.fst callee_eq).symm.trans null)
  · intro slot active member
    obtain ⟨older, different⟩ := fewer _ member
    rcases active_addTimer active with ⟨before, same⟩ | ⟨_, callee_eq⟩
    · simp only [step, System.step, same] at older
      exact clean.inPool slot before older
    · exact different callee_eq
  · intro call taken member
    exact clean.inWorker call taken (fewer _ member).1

/-- A removal in time leaves the worker nothing removed to call. -/
theorem Clean.remove {watch : Watch} (clean : watch.Clean) (id : TimerId)
    (inTime : watch.RemovedInTime (.remove id)) : (watch.step (.remove id)).Clean := by
  refine ⟨clean.fresh, ?_, ?_, ?_⟩
  · intro slot active
    obtain ⟨_, before, same⟩ := active_removeTimer active
    simp only [step, System.step, same]
    exact clean.callable slot before
  · intro slot active member
    obtain ⟨other, before, same⟩ := active_removeTimer active
    simp only [step, System.step, same] at member
    rcases List.mem_append.mp member with now | older
    · exact (inTime _ now).2 slot other before rfl
    · exact clean.inPool slot before older
  · intro call taken member
    rcases List.mem_append.mp member with now | older
    · exact (inTime _ now).1 call taken rfl
    · exact clean.inWorker call taken older

/-- The worker's own steps call nothing removed. -/
theorem Clean.worker {watch : Watch} (clean : watch.Clean) {label : Label}
    (own : label.ofWorker = true) : (watch.step label).Clean := by
  cases label with
  | add interval callback param time => cases own
  | remove id => cases own
  | wake now =>
      cases position : watch.system.worker with
      | sleeping =>
          refine ⟨clean.fresh, ?_, ?_, ?_⟩ <;> simp only [step, System.step, position]
          · exact clean.callable
          · exact clean.inPool
          · intro call taken
            exact clean.scan taken
      | taken call | running call =>
          have idle : watch.step (.wake now) = watch := by
            simp [step, System.step, position]
          rw [idle]
          exact clean
  | enter =>
      cases position : watch.system.worker with
      | taken call =>
          have allowed := clean.inWorker call position
          refine ⟨?_, ?_, ?_, ?_⟩ <;> simp only [step, System.step, position]
          · simp [clean.fresh, allowed]
          · exact clean.callable
          · exact clean.inPool
          · intro call taken
            cases taken
      | sleeping | running call =>
          have idle : watch.step .enter = watch := by
            simp [step, System.step, position]
          rw [idle]
          exact clean
  | finish next time =>
      cases position : watch.system.worker with
      | running call =>
          have settled : (watch.step (.finish next time)).system.pool =
              writeBack call.slot next time watch.system.pool := by
            simp only [step, System.step, position]
          have kept : Clean { watch with
              system := { watch.system with
                pool := writeBack call.slot next time watch.system.pool } } := by
            refine ⟨clean.fresh, ?_, ?_, ?_⟩
            · intro slot active null
              obtain ⟨before, same⟩ := writeBack_callee active
              exact clean.callable slot before ((congrArg Prod.fst same).symm.trans null)
            · intro slot active
              obtain ⟨before, same⟩ := writeBack_callee active
              rw [same]
              exact clean.inPool slot before
            · exact clean.inWorker
          refine ⟨clean.fresh, ?_, ?_, ?_⟩
          · rw [settled]
            exact kept.callable
          · rw [settled]
            exact kept.inPool
          · intro later taken
            simp only [step, System.step, position] at taken
            exact kept.scan taken
      | sleeping | taken call =>
          have idle : watch.step (.finish next time) = watch := by
            simp [step, System.step, position]
          rw [idle]
          exact clean

/-- Every step whose removals are in time keeps the timers clean. -/
theorem Clean.step {watch : Watch} (clean : watch.Clean) {label : Label}
    (inTime : watch.RemovedInTime label) : (watch.step label).Clean := by
  cases label with
  | add interval callback param time => exact clean.add interval callback param time
  | remove id => exact clean.remove id inTime
  | wake now => exact clean.worker rfl
  | enter => exact clean.worker rfl
  | finish next time => exact clean.worker rfl

/-- Clean timers call nothing removed, however the worker goes on. -/
theorem Clean.kept {watch : Watch} (clean : watch.Clean) : watch.Kept := by
  intro more own
  have stays : ∀ (labels : List Label) (watch : Watch), watch.Clean →
      (∀ label ∈ labels, label.ofWorker = true) → (machine.run watch labels).Clean := by
    intro labels
    induction labels with
    | nil => exact fun watch clean _ => clean
    | cons label rest ih =>
        intro watch clean own
        rw [Machine.run_cons]
        apply ih
        · exact clean.worker (own label List.mem_cons_self)
        · intro other member
          exact own other (List.mem_cons_of_mem _ member)
  exact (stays more watch clean own).fresh

/-! ### A late removal breaks it -/

/-- The timer at `slot` is untouched between the two, and so is the record of
removals. -/
structure Untouched (slot : Slot) (before after : Watch) : Prop where
  removed_eq : after.removed = before.removed
  active_eq : (after.system.pool slot).active = (before.system.pool slot).active
  callee_eq : (after.system.pool slot).callee = (before.system.pool slot).callee

/-- The worker can go on from `before` to `after` and leave the timer at `slot` alone. -/
def Leads (slot : Slot) (before after : Watch) : Prop :=
  ∃ more, (∀ label ∈ more, label.ofWorker = true) ∧ machine.run before more = after ∧
    Untouched slot before after

/-- A run of the worker that leaves a timer alone leaves it untouched. -/
theorem Leads.untouched {slot : Slot} {before after : Watch} (leads : Leads slot before after) :
    Untouched slot before after := by
  obtain ⟨_, _, _, untouched⟩ := leads
  exact untouched

/-- The worker can stay where it is. -/
theorem Leads.refl (slot : Slot) (watch : Watch) : Leads slot watch watch :=
  ⟨[], by simp, rfl, rfl, rfl, rfl⟩

/-- The worker can go on twice. -/
theorem Leads.trans {slot : Slot} {first second third : Watch} (early : Leads slot first second)
    (late : Leads slot second third) : Leads slot first third := by
  obtain ⟨more, own, rfl, kept⟩ := early
  obtain ⟨rest, ownRest, rfl, keptRest⟩ := late
  refine ⟨more ++ rest, ?_, Machine.run_append _ _ _, ?_, ?_, ?_⟩
  · intro label member
    rcases List.mem_append.mp member with earlier | later
    · exact own label earlier
    · exact ownRest label later
  · exact keptRest.removed_eq.trans kept.removed_eq
  · exact keptRest.active_eq.trans kept.active_eq
  · exact keptRest.callee_eq.trans kept.callee_eq

/-- The callback the worker holds returns and asks to be called again. -/
theorem leads_finish (slot : Slot) {watch : Watch} {call : Call}
    (running : watch.system.worker = .running call) :
    ∃ after, Leads slot watch after ∧
      after.system.worker = scanFrom (call.slot.val + 1) call.now after.system.pool := by
  obtain ⟨active_eq, callee_eq⟩ := writeBack_one call.slot slot 0 watch.system.pool
  have settled : (watch.step (.finish 1 0)).system =
      { pool := writeBack call.slot 1 0 watch.system.pool
        worker := scanFrom (call.slot.val + 1) call.now
          (writeBack call.slot 1 0 watch.system.pool) } := by
    simp only [step, System.step, running]
  refine ⟨watch.step (.finish 1 0), ⟨[.finish 1 0], by simp [Label.ofWorker], rfl, rfl, ?_, ?_⟩, ?_⟩
  · rw [settled]
    exact active_eq
  · rw [settled]
    exact callee_eq
  · rw [settled]

/-- The worker can call what it has taken. -/
theorem leads_enter (slot : Slot) {watch : Watch} {call : Call}
    (taken : watch.system.worker = .taken call) :
    ∃ after, Leads slot watch after ∧ after.system.worker = .running call ∧
      after.system.pool = watch.system.pool := by
  have entered : (watch.step .enter).system = { watch.system with worker := .running call } := by
    simp only [step, System.step, taken]
  refine ⟨watch.step .enter, ⟨[.enter], by simp [Label.ofWorker], rfl, rfl, ?_, ?_⟩, ?_, ?_⟩ <;>
    rw [entered]

/-- The worker gets through its scan. -/
theorem leads_sleeping (slot : Slot) (remaining : Nat) (watch : Watch)
    (bound : ∀ call, watch.system.worker = .taken call ∨ watch.system.worker = .running call →
      maxTimers ≤ call.slot.val + remaining) :
    ∃ after, Leads slot watch after ∧ after.system.worker = .sleeping := by
  induction remaining generalizing watch with
  | zero =>
      cases position : watch.system.worker with
      | sleeping => exact ⟨watch, .refl slot watch, position⟩
      | taken call =>
          have impossible := bound call (.inl position)
          omega
      | running call =>
          have impossible := bound call (.inr position)
          omega
  | succ remaining ih =>
      -- a callback that has been entered brings the scan past its slot
      have through : ∀ (watch : Watch) (call : Call), watch.system.worker = .running call →
          maxTimers ≤ call.slot.val + (remaining + 1) →
          ∃ after, Leads slot watch after ∧ after.system.worker = .sleeping := by
        intro watch call running near
        obtain ⟨middle, leads, scans⟩ := leads_finish slot running
        obtain ⟨after, later, sleeps⟩ := ih middle (by
          intro next position
          rcases scanFrom_cases (call.slot.val + 1) call.now middle.system.pool with
            idle | ⟨picked, ahead, _, picks⟩
          · rw [scans, idle] at position
            rcases position with position | position <;> cases position
          · rw [scans, picks] at position
            rcases position with position | position <;> cases position
            change maxTimers ≤ picked.val + remaining
            omega)
        exact ⟨after, leads.trans later, sleeps⟩
      cases position : watch.system.worker with
      | sleeping => exact ⟨watch, .refl slot watch, position⟩
      | taken call =>
          obtain ⟨middle, leads, running, _⟩ := leads_enter slot position
          obtain ⟨after, later, sleeps⟩ := through middle call running (bound call (.inl position))
          exact ⟨after, leads.trans later, sleeps⟩
      | running call => exact through watch call position (bound call (.inr position))

/-- A scan at the end of time comes to every active timer. -/
theorem leads_taken (target : Slot) (distance : Nat) (watch : Watch) {call : Call}
    (taken : watch.system.worker = .taken call) (last : call.now = 0xFFFFFFFFFFFFFFFF)
    (copied : call.callee = (watch.system.pool call.slot).callee)
    (active : (watch.system.pool target).active = true)
    (callable : (watch.system.pool target).cb ≠ 0)
    (behind : call.slot.val + distance = target.val) :
    ∃ after reached, Leads target watch after ∧ after.system.worker = .taken reached ∧
      reached.callee = (watch.system.pool target).callee := by
  induction distance using Nat.strong_induction_on generalizing watch call with
  | h distance ih =>
      rcases Nat.eq_zero_or_pos distance with arrived | ahead
      · have here : call.slot = target := Fin.ext (by omega)
        exact ⟨watch, call, .refl target watch, taken, copied.trans (by rw [here])⟩
      · obtain ⟨entered, enters, running, _⟩ := leads_enter target taken
        obtain ⟨finished, finishes, scans⟩ := leads_finish target running
        have kept := (enters.trans finishes).untouched
        have activeThere := kept.active_eq.trans active
        have callableThere : (finished.system.pool target).cb ≠ 0 := by
          have same := congrArg Prod.fst kept.callee_eq
          exact fun null => callable (same.symm.trans null)
        obtain ⟨picked, beyond, near, picks⟩ :=
          scanFrom_stops (call.slot.val + 1) (by omega) (due_last activeThere callableThere)
        rw [← last] at picks
        obtain ⟨after, reached, later, takes, callee_eq⟩ :=
          ih (target.val - picked.val) (by omega) finished (scans.trans picks) last rfl activeThere
            callableThere (by change picked.val + _ = _; omega)
        exact ⟨after, reached, (enters.trans finishes).trans later, takes,
          callee_eq.trans kept.callee_eq⟩

/-- What the worker cannot break later it cannot break now. -/
theorem Kept.leads {slot : Slot} {before after : Watch} (kept : before.Kept)
    (leads : Leads slot before after) : after.Kept := by
  obtain ⟨first, own, rfl, _⟩ := leads
  intro more ownMore
  rw [← Machine.run_append]
  apply kept
  intro label member
  rcases List.mem_append.mp member with earlier | later
  · exact own label earlier
  · exact ownMore label later

/-- A removed callee that the worker has taken can still be called. -/
theorem not_kept_of_taken {watch : Watch} {call : Call} (taken : watch.system.worker = .taken call)
    (removed : call.callee ∈ watch.removed) : ¬ watch.Kept := by
  intro kept
  have started := kept [.enter] (by simp [Label.ofWorker])
  simp [machine, Machine.run, step, taken, removed] at started

/-- The worker can wake up and scan. -/
theorem leads_wake (slot : Slot) {watch : Watch} (sleeping : watch.system.worker = .sleeping)
    (now : UInt64) :
    ∃ after, Leads slot watch after ∧ after.system.pool = watch.system.pool ∧
      after.system.worker = scanFrom 0 now watch.system.pool := by
  have woken : (watch.step (.wake now)).system =
      { watch.system with worker := scanFrom 0 now watch.system.pool } := by
    simp only [step, System.step, sleeping]
  refine ⟨watch.step (.wake now), ⟨[.wake now], by simp [Label.ofWorker], rfl, rfl, ?_, ?_⟩,
    ?_, ?_⟩ <;> rw [woken]

/-- An active timer whose callee has been removed will be called. -/
theorem not_kept_of_active {watch : Watch} {target : Slot}
    (active : (watch.system.pool target).active = true)
    (callable : (watch.system.pool target).cb ≠ 0)
    (removed : (watch.system.pool target).callee ∈ watch.removed) : ¬ watch.Kept := by
  intro kept
  -- through the present scan, then a scan at the end of time up to the timer
  obtain ⟨asleep, falls, sleeping⟩ := leads_sleeping target maxTimers watch (by
    intro call _
    omega)
  obtain ⟨awake, wakes, pool_eq, scans⟩ := leads_wake target sleeping 0xFFFFFFFFFFFFFFFF
  have untouched := (falls.trans wakes).untouched
  have activeThere := untouched.active_eq.trans active
  have callableThere : (awake.system.pool target).cb ≠ 0 := by
    have same := congrArg Prod.fst untouched.callee_eq
    exact fun null => callable (same.symm.trans null)
  rw [← pool_eq] at scans
  obtain ⟨picked, _, near, picks⟩ :=
    scanFrom_stops 0 (Nat.zero_le _) (due_last activeThere callableThere)
  obtain ⟨after, reached, later, takes, callee_eq⟩ :=
    leads_taken target (target.val - picked.val) awake (scans.trans picks) rfl rfl activeThere
      callableThere (by change picked.val + _ = _; omega)
  have untouchedLater := later.untouched
  refine not_kept_of_taken takes ?_ (kept.leads ((falls.trans wakes).trans later))
  rw [callee_eq, untouched.callee_eq, untouchedLater.removed_eq, untouched.removed_eq]
  exact removed

/-- A removal that comes too late is not kept. -/
theorem Clean.broken {watch : Watch} (clean : watch.Clean) {label : Label}
    (late : ¬ watch.RemovedInTime label) : ¬ (watch.step label).Kept := by
  cases label with
  | remove id =>
      simp only [RemovedInTime, not_forall, not_and_or] at late
      obtain ⟨callee, removed, out | shared⟩ := late
      · obtain ⟨call, taken, same⟩ := out
        refine not_kept_of_taken taken ?_
        rw [not_not.mp same]
        exact List.mem_append_left _ removed
      · obtain ⟨slot, other, active, same⟩ := shared
        have unchanged : (watch.step (.remove id)).system.pool slot = watch.system.pool slot := by
          cases id with
          | null => rfl
          | foreign => rfl
          | slot named =>
              have different : slot ≠ named := fun equal => other (by rw [equal])
              exact Function.update_of_ne different _ _
        apply @not_kept_of_active _ slot
        · rw [unchanged]
          exact active
        · rw [unchanged]
          exact clean.callable slot active
        · rw [unchanged, not_not.mp same]
          exact List.mem_append_left _ removed
  | add interval callback param time => exact absurd trivial late
  | wake now => exact absurd trivial late
  | enter => exact absurd trivial late
  | finish next time => exact absurd trivial late

/-- The promise of `SDL_RemoveTimer` is kept along an interleaving exactly when every
removal comes in time. -/
theorem removal_exact (labels : List Label) :
    machine.Always Kept machine.initial labels ↔
      machine.StepsMeet RemovedInTime machine.initial labels := by
  apply Machine.always_iff_stepsMeet_of_all Clean
  · intro watch clean
    exact clean.kept
  · intro watch label clean inTime
    exact clean.step inTime
  · intro watch label clean late
    exact clean.broken late
  · exact clean_initial

/-- The worker takes a timer that is due, the timer is removed, and its callback starts. -/
theorem removal_too_late :
    ¬ ∀ labels : List Label, machine.Always (fun watch => watch.stale = false) machine.initial
      labels := by
  intro claimed
  exact absurd (claimed [.add 10 1 7 0, .wake 20, .remove (.slot 0), .enter]) (by decide)

end Watch

end Nookobo.Shim.Timers
