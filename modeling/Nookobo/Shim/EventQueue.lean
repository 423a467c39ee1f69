import Nookobo.Semantics.Run
import Nookobo.Semantics.RingBuffer
import Nookobo.Shim.Input

/-!
# The SDL event queue

`queue_event` and `dequeue_event` on the array of 2048 events, each run under
`eq_mutex`. `Session` records, beside the array, the events that were accepted and
those that were handed out. The first half relates the array to a bounded queue over
every interleaving of calls; the second looks at the injections that put several
events in the queue one by one, with calls of other threads in between.
-/

namespace Nookobo.Shim

open Nookobo.Semantics

/-! ## The queue -/

/-- `MAX_EVENTS`. -/
def maxEvents : Nat := 2048

/-- The number of events the queue can hold. -/
def queueCapacity : Nat := 2047

section Queue

variable {α : Type}

/-- The test of `queue_event`: the advanced tail does not meet the head. -/
def accepts (queue : RingBuffer α) : Bool := (queue.tail + 1) % maxEvents != queue.head

/-- `queue_event`, also the whole of `SDL_PushEvent` on an event. -/
def queueEvent (event : α) (queue : RingBuffer α) : RingBuffer α :=
  if accepts queue then queue.push maxEvents event else queue

/-- `dequeue_event`, also the whole of `SDL_PollEvent` and one round of
`SDL_WaitEvent`. -/
def dequeueEvent (queue : RingBuffer α) : Option α × RingBuffer α :=
  if queue.head = queue.tail then (none, queue)
  else (some (queue.slots queue.head), queue.drop maxEvents)

/-- A call on the queue by any thread. -/
inductive Call (α : Type) where
  | queueEvent (event : α)
  | dequeueEvent

/-- `call` on the array alone. -/
def Call.apply (queue : RingBuffer α) : Call α → RingBuffer α
  | .queueEvent event => Shim.queueEvent event queue
  | .dequeueEvent => (Shim.dequeueEvent queue).2

/-! ### The list it stands for -/

/-- The test of `queue_event` asks whether the ring is full. -/
theorem accepts_iff (queue : RingBuffer α) : accepts queue = true ↔ ¬ queue.Full maxEvents := by
  simp [accepts, RingBuffer.Full]

/-- An event is accepted exactly when fewer than 2047 wait. -/
theorem accepts_iff_count {queue : RingBuffer α} (bounded : queue.Bounded maxEvents) :
    accepts queue = true ↔ queue.count maxEvents < queueCapacity := by
  have limit := bounded.count_lt
  rw [accepts_iff, bounded.full_iff]
  simp only [maxEvents, queueCapacity] at *
  omega

/-- An accepted event is put behind those that wait; another one is dropped. -/
theorem contents_queueEvent {queue : RingBuffer α} (bounded : queue.Bounded maxEvents) (event : α) :
    (queueEvent event queue).contents maxEvents =
      queue.contents maxEvents ++ if accepts queue then [event] else [] := by
  unfold queueEvent
  split
  · next room => exact bounded.contents_push ((accepts_iff queue).mp room) event
  · rw [List.append_nil]

/-- What `dequeue_event` hands out, followed by what it leaves, is what was there. -/
theorem contents_dequeueEvent {queue : RingBuffer α} (bounded : queue.Bounded maxEvents) :
    queue.contents maxEvents =
      (dequeueEvent queue).1.toList ++ (dequeueEvent queue).2.contents maxEvents := by
  unfold dequeueEvent
  split
  · rfl
  · next occupied => exact bounded.contents_drop occupied

/-- `dequeue_event` finds nothing exactly when nothing waits. -/
theorem dequeueEvent_eq_none_iff {queue : RingBuffer α} (bounded : queue.Bounded maxEvents) :
    (dequeueEvent queue).1 = none ↔ queue.contents maxEvents = [] := by
  rw [bounded.contents_eq_nil_iff]
  unfold dequeueEvent
  split <;> simp_all

/-- A call keeps the positions inside the array. -/
theorem bounded_apply {queue : RingBuffer α} (bounded : queue.Bounded maxEvents) (call : Call α) :
    (call.apply queue).Bounded maxEvents := by
  cases call with
  | queueEvent event =>
      simp only [Call.apply, queueEvent]
      split
      · exact bounded.push event
      · exact bounded
  | dequeueEvent =>
      simp only [Call.apply, dequeueEvent]
      split
      · exact bounded
      · exact bounded.drop

/-! ### Every interleaving -/

/-- The queue with its history. -/
structure Session (α : Type) where
  queue : RingBuffer α
  /-- The events `queue_event` stored. -/
  accepted : List α := []
  /-- The events `dequeue_event` handed out. -/
  dequeued : List α := []

namespace Session

/-- A call with its history. -/
def step (session : Session α) : Call α → Session α
  | .queueEvent event =>
      { session with
        queue := queueEvent event session.queue
        accepted := session.accepted ++ if accepts session.queue then [event] else [] }
  | .dequeueEvent =>
      { session with
        queue := (dequeueEvent session.queue).2
        dequeued := session.dequeued ++ (dequeueEvent session.queue).1.toList }

/-- The queue as the program starts, whatever the array holds. -/
def machine (slots : Nat → α) : Machine (Session α) (Call α) where
  initial := { queue := ⟨slots, 0, 0⟩ }
  step := step

/-- What was accepted and not yet handed out is what the array holds. -/
structure Holds (session : Session α) : Prop where
  bounded : session.queue.Bounded maxEvents
  conserved : session.accepted = session.dequeued ++ session.queue.contents maxEvents

/-- At the start the history is empty, and so is the ring. -/
theorem holds_initial (slots : Nat → α) : (machine slots).initial.Holds where
  bounded := ⟨Nat.zero_lt_succ 2047, Nat.zero_lt_succ 2047⟩
  conserved := rfl

/-- A call keeps what was accepted in order. -/
theorem holds_step {session : Session α} (holds : session.Holds) (call : Call α) :
    (session.step call).Holds := by
  obtain ⟨bounded, conserved⟩ := holds
  cases call with
  | queueEvent event =>
      refine ⟨bounded_apply bounded (.queueEvent event), ?_⟩
      simp only [step]
      rw [contents_queueEvent bounded, conserved, List.append_assoc]
  | dequeueEvent =>
      refine ⟨bounded_apply bounded .dequeueEvent, ?_⟩
      simp only [step]
      rw [conserved, List.append_assoc, ← contents_dequeueEvent bounded]

/-- The session is one of a queue of 2047 places that loses and repeats nothing. -/
structure Fifo (session : Session α) : Prop where
  head_le : session.queue.head ≤ 2047
  tail_le : session.queue.tail ≤ 2047
  dequeued_prefix : session.dequeued <+: session.accepted
  /-- The next event handed out is the oldest one accepted and not yet handed out. -/
  oldest : (dequeueEvent session.queue).1 = session.accepted[session.dequeued.length]?
  fails_iff : (dequeueEvent session.queue).1 = none ↔ session.accepted = session.dequeued
  rejects_iff : accepts session.queue = false ↔
    session.accepted.length = session.dequeued.length + 2047
  rejected_unchanged : accepts session.queue = false →
    ∀ event, session.step (.queueEvent event) = session

/-- What is conserved makes the queue one that loses and repeats nothing. -/
theorem Holds.fifo {session : Session α} (holds : session.Holds) : session.Fifo := by
  obtain ⟨bounded, conserved⟩ := holds
  have lengths : session.accepted.length =
      session.dequeued.length + session.queue.count maxEvents := by
    rw [conserved, List.length_append, RingBuffer.contents_length]
  have handsOut := contents_dequeueEvent bounded
  have fails := dequeueEvent_eq_none_iff bounded
  refine ⟨Nat.le_of_lt_succ bounded.head_lt, Nat.le_of_lt_succ bounded.tail_lt, ?_, ?_, ?_, ?_, ?_⟩
  · exact ⟨_, conserved.symm⟩
  · rw [conserved, List.getElem?_append_right (Nat.le_refl _), Nat.sub_self]
    cases taken : (dequeueEvent session.queue).1 with
    | none => rw [fails.mp taken, List.getElem?_nil]
    | some event =>
        rw [handsOut, taken]
        rfl
  · rw [fails, conserved]
    exact List.append_right_eq_self.symm
  · rw [← Bool.not_eq_true, accepts_iff_count bounded, lengths]
    have limit := bounded.count_lt
    simp only [maxEvents, queueCapacity] at *
    omega
  · intro rejected event
    simp [step, queueEvent, rejected]

/-- Over every interleaving of `queue_event` and `dequeue_event`, the array behaves as
a queue of 2047 places: events leave in the order they were accepted, none is lost or
repeated, an event is refused exactly when 2047 are waiting, and both positions stay
in the array. -/
theorem eventQueue_refines_fifo (slots : Nat → α) (calls : List (Call α)) :
    (machine slots).Always Fifo (machine slots).initial calls := by
  apply Machine.always_of_invariant Holds
  · intro session holds
    exact holds.fifo
  · intro session call holds
    exact holds_step holds call
  · exact holds_initial slots

end Session

/-! ## Several events in a row

The gap before each event of an injection holds the calls other threads complete
between the previous enqueue and this one. -/

/-- The array after some calls. -/
def runCalls (queue : RingBuffer α) (calls : List (Call α)) : RingBuffer α :=
  calls.foldl Call.apply queue

/-- Which of the events are accepted when each comes after its gap. -/
def acceptedFlags : RingBuffer α → List (List (Call α) × α) → List Bool
  | _, [] => []
  | queue, (gap, event) :: rest =>
      accepts (runCalls queue gap) ::
        acceptedFlags (queueEvent event (runCalls queue gap)) rest

/-- All of the events are accepted or none is. -/
def AllOrNothing (flags : List Bool) : Prop :=
  (∀ flag ∈ flags, flag = true) ∨ ∀ flag ∈ flags, flag = false

/-! ### Counting places -/

/-- The number of waiting events after a call. -/
def Call.fill (waiting : Nat) : Call α → Nat
  | .queueEvent _ => min (waiting + 1) queueCapacity
  | .dequeueEvent => waiting - 1

/-- The number of waiting events after some calls. -/
def fillAfter (waiting : Nat) (calls : List (Call α)) : Nat := calls.foldl Call.fill waiting

/-- The number of waiting events each enqueue of an injection finds. -/
def fillsFound : Nat → List (List (Call α)) → List Nat
  | _, [] => []
  | waiting, gap :: rest =>
      fillAfter waiting gap :: fillsFound (min (fillAfter waiting gap + 1) queueCapacity) rest

/-- A call changes the number of waiting events as counted. -/
theorem count_apply {queue : RingBuffer α} (bounded : queue.Bounded maxEvents) (call : Call α) :
    (call.apply queue).count maxEvents = call.fill (queue.count maxEvents) := by
  have limit := bounded.count_lt
  cases call with
  | queueEvent event =>
      have decides := accepts_iff_count bounded
      simp only [Call.apply, Call.fill, queueEvent]
      split
      · next room =>
          have below := decides.mp room
          rw [bounded.count_push ((accepts_iff queue).mp room)]
          omega
      · next crowded =>
          have atLimit : ¬ queue.count maxEvents < queueCapacity := by rwa [← decides]
          simp only [maxEvents, queueCapacity] at *
          omega
  | dequeueEvent =>
      simp only [Call.apply, Call.fill, dequeueEvent]
      split
      · next idle => rw [bounded.count_eq_zero_iff.mpr idle]
      · next occupied =>
          have fewer := bounded.count_drop occupied
          change (queue.drop maxEvents).count maxEvents = _
          omega

/-- Some calls change the number of waiting events as counted. -/
theorem runCalls_fill {queue : RingBuffer α} (bounded : queue.Bounded maxEvents)
    (calls : List (Call α)) :
    (runCalls queue calls).Bounded maxEvents ∧
      (runCalls queue calls).count maxEvents = fillAfter (queue.count maxEvents) calls := by
  induction calls generalizing queue with
  | nil => exact ⟨bounded, rfl⟩
  | cons call rest ih =>
      have later := ih (bounded_apply bounded call)
      rw [count_apply bounded] at later
      exact later

/-- Each event of an injection is accepted exactly when its enqueue finds a place. -/
theorem acceptedFlags_eq {queue : RingBuffer α} (bounded : queue.Bounded maxEvents)
    (schedule : List (List (Call α) × α)) :
    acceptedFlags queue schedule =
      (fillsFound (queue.count maxEvents) (schedule.map Prod.fst)).map
        fun found => decide (found < queueCapacity) := by
  induction schedule generalizing queue with
  | nil => rfl
  | cons entry rest ih =>
      obtain ⟨gap, event⟩ := entry
      obtain ⟨boundedThere, fill⟩ := runCalls_fill bounded gap
      have decides := accepts_iff_count boundedThere
      have later := ih (bounded_apply boundedThere (.queueEvent event))
      rw [count_apply boundedThere, fill] at later
      rw [fill] at decides
      simp only [acceptedFlags, List.map_cons, fillsFound]
      congr 1
      rw [Bool.eq_iff_iff, decides, decide_eq_true_iff]

/-- No calls bring the number beyond the capacity. -/
theorem fillAfter_le {waiting : Nat} (room : waiting ≤ queueCapacity) (calls : List (Call α)) :
    fillAfter waiting calls ≤ queueCapacity := by
  induction calls generalizing waiting with
  | nil => exact room
  | cons call rest ih =>
      apply ih
      cases call with
      | queueEvent event => exact Nat.min_le_right _ _
      | dequeueEvent => exact Nat.le_trans (Nat.sub_le _ _) room

/-- No enqueue finds more events than the capacity. -/
theorem fillsFound_le {waiting : Nat} (room : waiting ≤ queueCapacity)
    (gaps : List (List (Call α))) : ∀ found ∈ fillsFound waiting gaps, found ≤ queueCapacity := by
  induction gaps generalizing waiting with
  | nil => simp [fillsFound]
  | cons gap rest ih =>
      intro found member
      rcases List.mem_cons.mp member with here | later
      · rw [here]
        exact fillAfter_le room gap
      · exact ih (Nat.min_le_right _ _) found later

/-- Every enqueue of the injection finds a free place, or every one finds the queue
full. -/
def EvenlyMet (found : List Nat) : Prop :=
  (∀ waiting ∈ found, waiting < queueCapacity) ∨ ∀ waiting ∈ found, waiting = queueCapacity

/-- All are accepted or none exactly when they meet the queue evenly. -/
theorem allOrNothing_map_iff {found : List Nat}
    (limit : ∀ waiting ∈ found, waiting ≤ queueCapacity) :
    AllOrNothing (found.map fun waiting => decide (waiting < queueCapacity)) ↔
      EvenlyMet found := by
  simp only [AllOrNothing, EvenlyMet, List.forall_mem_map, decide_eq_true_iff,
    decide_eq_false_iff_not]
  apply or_congr Iff.rfl
  constructor
  · intro refused waiting member
    exact Nat.le_antisymm (limit waiting member) (Nat.le_of_not_lt (refused waiting member))
  · intro full waiting member
    exact Nat.not_lt_of_ge (Nat.le_of_eq (full waiting member).symm)

end Queue

/-! ### The injections of the shim -/

/-- The places of the source that put several events in the queue for one action. -/
inductive Injection where
  | oskInjectKey (sym unicode : Nat)
  | sendCtrlKey (sym unicode : Nat)
  | simulateClick (x y : Int)
  /-- A finger comes down on the page: `queue_touch_motion`, then the button. -/
  | touchPress (x y xrel yrel : Int)

/-- The events of an injection, in the order they are queued. -/
def Injection.events : Injection → List Event
  | .oskInjectKey sym unicode =>
      [.keyDown ⟨sym.toUInt8, sym, unicode.toUInt16⟩, .keyUp ⟨sym.toUInt8, sym, unicode.toUInt16⟩]
  | .sendCtrlKey sym unicode =>
      [.keyDown ⟨0, sdlkLctrl, 0⟩,
        .keyDown ⟨if sym < 256 then sym.toUInt8 else 0, sym, unicode.toUInt16⟩,
        .keyUp ⟨if sym < 256 then sym.toUInt8 else 0, sym, unicode.toUInt16⟩,
        .keyUp ⟨0, sdlkLctrl, 0⟩]
  | .simulateClick x y =>
      [.mouseMotion false (toField x) (toField y) 0 0, .mouseButtonDown (toField x) (toField y),
        .mouseButtonUp (toField x) (toField y)]
  | .touchPress x y xrel yrel =>
      [.mouseMotion false (toField x) (toField y) xrel yrel,
        .mouseButtonDown (toField x) (toField y)]

/-- `osk_inject_key` queues the events of its injection. -/
theorem oskInjectKey_eq_queue (sym unicode : Nat) :
    State.oskInjectKey sym unicode = State.queue (Injection.oskInjectKey sym unicode).events := rfl

/-- `send_ctrl_key` queues the events of its injection. -/
theorem sendCtrlKey_eq_queue (sym unicode : Nat) :
    State.sendCtrlKey sym unicode = State.queue (Injection.sendCtrlKey sym unicode).events := rfl

/-- `simulate_click` queues the events of its injection. -/
theorem simulateClick_eq_queue (x y : Int) :
    State.simulateClick x y = State.queue (Injection.simulateClick x y).events := rfl

/-- A press that reaches the browser queues the events of a touch press. -/
theorem regularTouch_press_events (state : State) (presses : state.pressing = true) :
    state.regularTouch.events = state.events ++
      (Injection.touchPress state.mappedX state.mappedY (state.mappedX - state.lastTouchX)
        (state.mappedY - state.lastTouchY)).events := by
  simp only [State.regularTouch, presses, if_true]
  rfl

/-- The injection with its gaps: `gaps index` comes before the event at `index`. -/
def Injection.schedule (gaps : Nat → List (Call Event)) (injection : Injection) :
    List (List (Call Event) × Event) :=
  injection.events.mapIdx fun index event => (gaps index, event)

/-- The queue after the calls made since the program started. -/
def queueAfter (slots : Nat → Event) (history : List (Call Event)) : RingBuffer Event :=
  runCalls ⟨slots, 0, 0⟩ history

/-- The waiting events each enqueue of the injection finds, counted from the calls. -/
def Injection.found (history : List (Call Event)) (gaps : Nat → List (Call Event))
    (injection : Injection) : List Nat :=
  fillsFound (fillAfter 0 history) ((List.range injection.events.length).map gaps)

/-- The gaps of a schedule, one before each event. -/
theorem Injection.schedule_gaps (gaps : Nat → List (Call Event)) (injection : Injection) :
    (injection.schedule gaps).map Prod.fst =
      (List.range injection.events.length).map gaps := by
  apply List.ext_getElem
  · simp [schedule]
  · intro index _ _
    simp [schedule]

/-- The enqueues of an injection succeed as the count of the calls says. -/
theorem acceptedFlags_queueAfter (slots : Nat → Event) (history : List (Call Event))
    (gaps : Nat → List (Call Event)) (injection : Injection) :
    acceptedFlags (queueAfter slots history) (injection.schedule gaps) =
      (injection.found history gaps).map fun waiting => decide (waiting < queueCapacity) := by
  have start : (⟨slots, 0, 0⟩ : RingBuffer Event).Bounded maxEvents :=
    ⟨Nat.zero_lt_succ 2047, Nat.zero_lt_succ 2047⟩
  obtain ⟨bounded, fill⟩ := runCalls_fill start history
  rw [queueAfter, acceptedFlags_eq bounded, fill, injection.schedule_gaps]
  rfl

/-- An injection is accepted as a whole or refused as a whole exactly when its
enqueues all find a free place or all find the queue full. -/
theorem injection_allOrNothing_iff (slots : Nat → Event) (history : List (Call Event))
    (gaps : Nat → List (Call Event)) (injection : Injection) :
    AllOrNothing (acceptedFlags (queueAfter slots history) (injection.schedule gaps)) ↔
      EvenlyMet (injection.found history gaps) := by
  rw [acceptedFlags_queueAfter]
  apply allOrNothing_map_iff
  exact fillsFound_le (fillAfter_le (Nat.zero_le _) history) _

/-- Events that find room are all accepted. -/
theorem fillAfter_replicate {α : Type} (event : α) {waiting : Nat} (times : Nat)
    (room : waiting + times ≤ queueCapacity) :
    fillAfter waiting (List.replicate times (.queueEvent event)) = waiting + times := by
  induction times generalizing waiting with
  | zero => rfl
  | succ times ih =>
      rw [List.replicate_succ]
      change fillAfter (min (waiting + 1) queueCapacity) _ = _
      rw [Nat.min_eq_left (by omega), ih (by omega)]
      omega

/-- With 2046 events waiting and nobody else at work, a key of the on-screen keyboard
goes down and never comes up. -/
theorem oskInjectKey_torn_by_full_queue :
    ¬ ∀ (slots : Nat → Event) (history : List (Call Event)) (gaps : Nat → List (Call Event))
      (injection : Injection),
      AllOrNothing (acceptedFlags (queueAfter slots history) (injection.schedule gaps)) := by
  intro claimed
  let waiting : List (Call Event) := List.replicate 2046 (.queueEvent (.mouseButtonUp 0 0))
  have whole := claimed (fun _ => .mouseButtonUp 0 0) waiting (fun _ => [])
    (.oskInjectKey sdlkReturn 13)
  have filled : fillAfter 0 waiting = 2046 := fillAfter_replicate _ 2046 (by decide)
  have flags : acceptedFlags (queueAfter (fun _ => .mouseButtonUp 0 0) waiting)
      ((Injection.oskInjectKey sdlkReturn 13).schedule fun _ => []) = [true, false] := by
    rw [acceptedFlags_queueAfter, Injection.found, filled]
    rfl
  rw [flags] at whole
  rcases whole with all | none
  · exact absurd (all false (by decide)) (by decide)
  · exact absurd (none true (by decide)) (by decide)

end Nookobo.Shim
