import Nookobo.Semantics.RingBuffer
import Nookobo.Text.Scan

/-!
# The Plato shim: touch input

`plato_shim.so` stands between Plato and the C library. Reads of the touch device
return a stream of frames in the form Plato expects, translated from the kernel's
events and kept in a ring until Plato has taken them. The real `read` and `poll` are
the environment: `read` is given the replies the kernel will make, `poll` either
answers by itself or passes the call on.
-/

namespace Nookobo.Plato

open Nookobo.Semantics Nookobo.Text

/-! ## Events -/

/-- `EV_SYN` and the other types and codes of events. -/
def evSyn : UInt16 := 0
def evKey : UInt16 := 1
def evAbs : UInt16 := 3
def synReport : UInt16 := 0
def btnTouch : UInt16 := 0x14a
def absMtTouchMajor : UInt16 := 0x30
def absMtPositionX : UInt16 := 0x35
def absMtPositionY : UInt16 := 0x36
def absMtTrackingId : UInt16 := 0x39

/-- `struct plato_input_event`, 16 bytes. -/
structure InputEvent where
  sec : UInt32
  usec : UInt32
  type : UInt16
  code : UInt16
  value : Int32
deriving DecidableEq, Repr

/-- `sizeof(struct plato_input_event)`. -/
def eventSize : Nat := 16

/-! ## State -/

/-- `SHIM_QUEUE_SIZE`. -/
def shimQueueSize : Nat := 128

/-- The file-scope variables of the touch translator. -/
structure State where
  queue : RingBuffer InputEvent
  touchFd : Int := -1
  isDown : Bool := false
  newDown : Bool := false
  trackingId : Int32 := 0
  lastX : Int32 := 0
  lastY : Int32 := 0
  /-- Whether `enqueue_event` has thrown away its oldest event since the device was
  opened; the shim itself keeps no such record. -/
  overwritten : Bool := false

namespace State

/-- `enqueue_event`: a full ring gives up its oldest event. -/
def enqueueEvent (type code : UInt16) (value : Int32) (sec usec : UInt32) (state : State) : State :=
  let crowded := decide ((state.queue.tail + 1) % shimQueueSize = state.queue.head)
  let room := if crowded then state.queue.drop shimQueueSize else state.queue
  { state with
    queue := room.push shimQueueSize ⟨sec, usec, type, code, value⟩
    overwritten := state.overwritten || crowded }

/-- The five events of a frame. -/
def enqueueFrame (major : Int32) (sec usec : UInt32) (state : State) : State :=
  ((((state.enqueueEvent evAbs absMtTrackingId state.trackingId sec usec).enqueueEvent evAbs
    absMtPositionX state.lastX sec usec).enqueueEvent evAbs absMtPositionY state.lastY sec
    usec).enqueueEvent evAbs absMtTouchMajor major sec usec).enqueueEvent evSyn synReport 0 sec usec

/-- `EV_ABS`. -/
def handleAbs (raw : InputEvent) (state : State) : State :=
  if raw.code = absMtTrackingId then
    if 0 ≤ raw.value then { state with trackingId := raw.value } else state
  else if raw.code = absMtPositionX then { state with lastX := raw.value }
  else if raw.code = absMtPositionY then { state with lastY := raw.value }
  else state

/-- `SYN_REPORT`: the finger comes down, stays down or lifts. -/
def handleReport (raw : InputEvent) (state : State) : State :=
  if !state.isDown && state.newDown then
    { state with isDown := true }.enqueueFrame 100 raw.sec raw.usec
  else if state.isDown && state.newDown then state.enqueueFrame 100 raw.sec raw.usec
  else if state.isDown && !state.newDown then
    { state with isDown := false }.enqueueFrame 0 raw.sec raw.usec
  else state

/-- One event of the kernel, in the loop of `read`. -/
def handleRaw (state : State) (raw : InputEvent) : State :=
  if raw.type = evAbs then state.handleAbs raw
  else if raw.type = evKey then
    if raw.code = btnTouch then { state with newDown := raw.value != 0 } else state
  else if raw.type = evSyn ∧ raw.code = synReport then state.handleReport raw
  else state

end State

/-! ## Reading -/

/-- What the kernel returns to one `real_read` of at most 16 events: nothing (end of
file or an error), or a batch of whole events. -/
inductive Reply where
  | failed (result : Int) (notPositive : result ≤ 0)
  | batch (events : List InputEvent) (nonempty : events ≠ []) (fits : events.length ≤ 16)

/-- The raw events of a reply. -/
def Reply.raw : Reply → List InputEvent
  | .failed _ _ => []
  | .batch events _ _ => events

/-- How a call of `read` ends. -/
inductive ReadResult where
  /-- The call is still waiting for the kernel. -/
  | waiting
  /-- `real_read` returned this number. -/
  | failed (result : Int)
  /-- The events copied to the caller, 16 bytes each. -/
  | copied (events : List InputEvent)
  /-- The descriptor is not the touch device; `real_read` serves the call. -/
  | passed
deriving DecidableEq

/-- What the loop that fills the ring ends with, the state and the replies left. -/
inductive Refill where
  | waiting
  | failed (result : Int)
  | ready

namespace State

/-- The `while` loop of `read` that fills an empty ring. -/
def refill (state : State) : List Reply → Refill × State × List Reply
  | [] =>
      if state.queue.head = state.queue.tail then (.waiting, state, []) else (.ready, state, [])
  | reply :: rest =>
      if state.queue.head = state.queue.tail then
        match reply with
        | .failed result _ => (.failed result, state, rest)
        | .batch events _ _ => (events.foldl handleRaw state).refill rest
      else (.ready, state, reply :: rest)

/-- The loop that copies at most `room` events out of the ring. -/
def copyOut : Nat → RingBuffer InputEvent → List InputEvent × RingBuffer InputEvent
  | 0, queue => ([], queue)
  | room + 1, queue =>
      if queue.head = queue.tail then ([], queue)
      else
        let rest := copyOut room (queue.drop shimQueueSize)
        (queue.slots queue.head :: rest.1, rest.2)

/-- `is_touch_fd`; `linksToEvent1` says whether the descriptor's link names `event1`. -/
def isTouchFd (fd : Int) (linksToEvent1 : Bool) (state : State) : Bool × State :=
  if fd < 0 then (false, state)
  else if fd = state.touchFd then (true, state)
  else if 0 ≤ state.touchFd then (false, state)
  else if linksToEvent1 then (true, { state with touchFd := fd })
  else (false, state)

/-- `read` of `count` bytes, with the kernel's replies from now on. -/
def read (fd : Int) (linksToEvent1 : Bool) (count : UInt32) (replies : List Reply)
    (state : State) : ReadResult × State × List Reply :=
  match state.isTouchFd fd linksToEvent1 with
  | (false, state) => (.passed, state, replies)
  | (true, state) =>
      match state.refill replies with
      | (.waiting, state, rest) => (.waiting, state, rest)
      | (.failed result, state, rest) => (.failed result, state, rest)
      | (.ready, state, rest) =>
          let taken := copyOut (count.toNat / eventSize) state.queue
          (.copied taken.1, { state with queue := taken.2 }, rest)

/-! ## Polling, opening and closing -/

/-- `handle_open` once the real `open` has returned `ret`. -/
def handleOpen (pathname : List UInt8) (ret : Int) (state : State) : State :=
  if 0 ≤ ret ∧ (strstr (ascii "event1") pathname).isSome then
    { queue := { state.queue with head := 0, tail := 0 }
      touchFd := ret
      isDown := false
      newDown := false
      trackingId := 0
      lastX := 0
      lastY := 0
      overwritten := false }
  else state

/-- `close`, before the real one is called. -/
def close (fd : Int) (state : State) : State :=
  if fd = state.touchFd then
    { state with
      touchFd := -1
      queue := { state.queue with head := 0, tail := 0 }
      isDown := false
      newDown := false }
  else state

end State

/-- `struct pollfd`. -/
structure PollFd where
  fd : Int
  events : UInt16
  revents : UInt16
deriving DecidableEq, Repr

/-- `POLLIN`. -/
def pollIn : UInt16 := 1

/-- The entry asks whether `touchFd` can be read. -/
def PollFd.watches (touchFd : Int) (entry : PollFd) : Bool :=
  entry.fd == touchFd && entry.events &&& pollIn != 0

/-- How a call of `poll` ends, with the entries as the shim leaves them. -/
inductive PollResult where
  | answered (found : Nat) (entries : List PollFd)
  /-- `real_poll` serves the call. -/
  | passed (entries : List PollFd)
deriving DecidableEq

/-- `poll`. -/
def State.poll (entries : List PollFd) (state : State) : PollResult :=
  if 0 ≤ state.touchFd ∧ state.queue.head ≠ state.queue.tail then
    let marked := entries.map fun entry =>
      { entry with revents := if entry.watches state.touchFd then pollIn else 0 }
    let found := entries.countP fun entry => entry.watches state.touchFd
    if 0 < found then .answered found marked else .passed marked
  else .passed entries

end Nookobo.Plato
