import Nookobo.Semantics.Run
import Nookobo.Plato.Model

/-!
# The Plato shim: the translated stream

What the shim makes of a raw stream does not depend on how the kernel cuts it into
batches nor on how much Plato takes at a time. `Decoder` is the translation by itself,
a function from raw events to frames; the shim's `read` refines it: what has been
handed out, followed by what the ring holds, is the translation of what the kernel has
delivered. The second half is about the frames: contacts are well formed and each
frame carries the last known position.
-/

namespace Nookobo.Plato

open Nookobo.Semantics Nookobo.Text

/-! ## The translation -/

/-- A frame as Plato sees it. -/
structure TouchFrame where
  sec : UInt32
  usec : UInt32
  trackingId : Int32
  x : Int32
  y : Int32
  major : Int32
deriving DecidableEq, Repr

/-- The events of a frame. -/
def TouchFrame.events (frame : TouchFrame) : List InputEvent :=
  [⟨frame.sec, frame.usec, evAbs, absMtTrackingId, frame.trackingId⟩,
    ⟨frame.sec, frame.usec, evAbs, absMtPositionX, frame.x⟩,
    ⟨frame.sec, frame.usec, evAbs, absMtPositionY, frame.y⟩,
    ⟨frame.sec, frame.usec, evAbs, absMtTouchMajor, frame.major⟩,
    ⟨frame.sec, frame.usec, evSyn, synReport, 0⟩]

/-- What a raw stream has said so far. -/
structure Decoder where
  /-- The last frame was one of a contact. -/
  isDown : Bool := false
  /-- The last word on the contact. -/
  newDown : Bool := false
  trackingId : Int32 := 0
  lastX : Int32 := 0
  lastY : Int32 := 0
deriving DecidableEq

/-- The event ends a raw frame. -/
def InputEvent.isReport (raw : InputEvent) : Prop := raw.type = evSyn ∧ raw.code = synReport

instance (raw : InputEvent) : Decidable raw.isReport := inferInstanceAs (Decidable (_ ∧ _))

/-- The event gives the value of an axis. -/
def InputEvent.isAxis (axis : UInt16) (raw : InputEvent) : Prop :=
  raw.type = evAbs ∧ raw.code = axis

instance (axis : UInt16) (raw : InputEvent) : Decidable (raw.isAxis axis) :=
  inferInstanceAs (Decidable (_ ∧ _))

namespace Decoder

/-- The decoder after an event. -/
def next (decoder : Decoder) (raw : InputEvent) : Decoder where
  isDown := if raw.isReport then decoder.newDown else decoder.isDown
  newDown :=
    if raw.type = evKey ∧ raw.code = btnTouch then raw.value != 0 else decoder.newDown
  trackingId :=
    if raw.isAxis absMtTrackingId ∧ 0 ≤ raw.value then raw.value else decoder.trackingId
  lastX := if raw.isAxis absMtPositionX then raw.value else decoder.lastX
  lastY := if raw.isAxis absMtPositionY then raw.value else decoder.lastY

/-- The frame an event produces: one for each report in a contact or leaving it. -/
def frame (decoder : Decoder) (raw : InputEvent) : Option TouchFrame :=
  if raw.isReport ∧ (decoder.isDown || decoder.newDown) then
    some
      { sec := raw.sec
        usec := raw.usec
        trackingId := decoder.trackingId
        x := decoder.lastX
        y := decoder.lastY
        major := if decoder.newDown then 100 else 0 }
  else none

/-- The decoder after some events. -/
def after (decoder : Decoder) (raws : List InputEvent) : Decoder := raws.foldl next decoder

/-- The frames of a raw stream. -/
def frames : Decoder → List InputEvent → List TouchFrame
  | _, [] => []
  | decoder, raw :: rest => (decoder.frame raw).toList ++ frames (decoder.next raw) rest

/-- Nothing read leaves the decoder as it is. -/
@[simp] theorem after_nil (decoder : Decoder) : decoder.after [] = decoder := rfl

/-- The first event comes before the rest. -/
@[simp] theorem after_cons (decoder : Decoder) (raw : InputEvent) (rest : List InputEvent) :
    decoder.after (raw :: rest) = (decoder.next raw).after rest := rfl

/-- Two streams in a row are decoded one after the other. -/
@[simp] theorem after_append (decoder : Decoder) (first second : List InputEvent) :
    decoder.after (first ++ second) = (decoder.after first).after second :=
  List.foldl_append

/-- The frames of two streams in a row; the second is decoded from where the first ends. -/
theorem frames_append (decoder : Decoder) (first second : List InputEvent) :
    decoder.frames (first ++ second) =
      decoder.frames first ++ (decoder.after first).frames second := by
  induction first generalizing decoder with
  | nil => rfl
  | cons raw rest ih =>
      simp only [List.cons_append, frames, after_cons]
      rw [ih, List.append_assoc]

end Decoder

/-- The events Plato is to see for a raw stream read from a freshly opened device. -/
def translate (raws : List InputEvent) : List InputEvent :=
  (Decoder.frames {} raws).flatMap TouchFrame.events

/-- The translation of two streams in a row. -/
theorem translate_append (first second : List InputEvent) :
    translate (first ++ second) =
      translate first ++
        ((Decoder.after {} first).frames second).flatMap TouchFrame.events := by
  rw [translate, Decoder.frames_append, List.flatMap_append]
  rfl

/-! ## The shim refines it -/

namespace State

/-- The decoder inside the shim. -/
def decoder (state : State) : Decoder where
  isDown := state.isDown
  newDown := state.newDown
  trackingId := state.trackingId
  lastX := state.lastX
  lastY := state.lastY

/-- The translated events not yet handed out. -/
def queued (state : State) : List InputEvent := state.queue.contents shimQueueSize

/-- Both positions are in the ring and nothing has been thrown away. -/
structure Sound (state : State) : Prop where
  bounded : state.queue.Bounded shimQueueSize
  kept : state.overwritten = false

/-- `after` is `before` with some more events in its ring and nothing else changed
there but the decoder. -/
structure Enqueued (before after : State) (events : List InputEvent) (decoder : Decoder) :
    Prop where
  sound : after.Sound
  queued : after.queued = before.queued ++ events
  decoder_eq : after.decoder = decoder
  touchFd_eq : after.touchFd = before.touchFd

/-- As many events are queued as the ring counts. -/
theorem queued_length (state : State) : state.queued.length = state.queue.count shimQueueSize :=
  RingBuffer.contents_length

/-- The ring is empty exactly when its positions meet. -/
theorem queued_eq_nil_iff {state : State} (sound : state.Sound) :
    state.queued = [] ↔ state.queue.head = state.queue.tail :=
  sound.bounded.contents_eq_nil_iff

/-- With room left, an event goes to the end of the ring. -/
theorem Enqueued.enqueueEvent {before middle : State} {events : List InputEvent}
    {decoder : Decoder} (enqueued : Enqueued before middle events decoder)
    (room : before.queued.length + events.length < 127) (type code : UInt16) (value : Int32)
    (sec usec : UInt32) :
    Enqueued before (middle.enqueueEvent type code value sec usec)
      (events ++ [⟨sec, usec, type, code, value⟩]) decoder := by
  have bounded := enqueued.sound.bounded
  have notFull : ¬ middle.queue.Full shimQueueSize := by
    rw [bounded.full_iff, ← queued_length, enqueued.queued, List.length_append]
    simp only [shimQueueSize]
    omega
  have same : middle.enqueueEvent type code value sec usec =
      { middle with queue := middle.queue.push shimQueueSize ⟨sec, usec, type, code, value⟩ } := by
    have roomy : ¬ (middle.queue.tail + 1) % shimQueueSize = middle.queue.head := notFull
    simp [State.enqueueEvent, roomy]
  rw [same]
  refine ⟨⟨bounded.push _, enqueued.sound.kept⟩, ?_, enqueued.decoder_eq, enqueued.touchFd_eq⟩
  rw [← List.append_assoc, ← enqueued.queued]
  exact bounded.contents_push notFull _

/-- A sound state has had nothing put into its ring. -/
theorem Sound.enqueued {state : State} (sound : state.Sound) :
    Enqueued state state [] state.decoder :=
  ⟨sound, (List.append_nil _).symm, rfl, rfl⟩

/-- With room for a whole frame, its five events go to the end of the ring. -/
theorem enqueueFrame_enqueued {state : State} (sound : state.Sound)
    (room : state.queued.length + 5 ≤ 127) (major : Int32) (sec usec : UInt32) :
    Enqueued state (state.enqueueFrame major sec usec)
      (TouchFrame.events ⟨sec, usec, state.trackingId, state.lastX, state.lastY, major⟩)
      state.decoder := by
  have first := sound.enqueued.enqueueEvent (by simp; omega) evAbs absMtTrackingId
    state.trackingId sec usec
  have second := first.enqueueEvent (by simp; omega) evAbs absMtPositionX state.lastX sec usec
  have third := second.enqueueEvent (by simp; omega) evAbs absMtPositionY state.lastY sec usec
  have fourth := third.enqueueEvent (by simp; omega) evAbs absMtTouchMajor major sec usec
  exact fourth.enqueueEvent (by simp; omega) evSyn synReport 0 sec usec

/-- A step that leaves the ring alone enqueues nothing. -/
theorem Sound.quiet {state after : State} {decoder : Decoder} (sound : state.Sound)
    (queue_eq : after.queue = state.queue) (kept : after.overwritten = state.overwritten)
    (touchFd_eq : after.touchFd = state.touchFd) (decoder_eq : after.decoder = decoder) :
    Enqueued state after [] decoder := by
  refine ⟨⟨?_, ?_⟩, ?_, decoder_eq, touchFd_eq⟩
  · rw [queue_eq]
    exact sound.bounded
  · rw [kept]
    exact sound.kept
  · rw [List.append_nil, queued, queue_eq]
    rfl

/-- An axis event moves the shim's decoder as it should. -/
theorem handleAbs_decoder (state : State) {raw : InputEvent} (abs : raw.type = evAbs) :
    (state.handleAbs raw).decoder = state.decoder.next raw := by
  have notReport : ¬ raw.isReport := by
    rintro ⟨type, _⟩
    exact absurd (abs.symm.trans type) (by decide)
  simp only [handleAbs, Decoder.next, InputEvent.isAxis, abs, notReport]
  rcases eq_or_ne raw.code absMtTrackingId with tracking | notTracking
  · by_cases numbered : 0 ≤ raw.value
    · simp [tracking, numbered, decoder, absMtTrackingId, absMtPositionX, absMtPositionY, evAbs,
        evKey]
    · simp [tracking, numbered, decoder, absMtTrackingId, absMtPositionX, absMtPositionY, evAbs,
        evKey]
  · rcases eq_or_ne raw.code absMtPositionX with onX | notX
    · simp [onX, decoder, absMtTrackingId, absMtPositionX, absMtPositionY, evAbs, evKey]
    · by_cases onY : raw.code = absMtPositionY
      · simp [onY, decoder, absMtTrackingId, absMtPositionX, absMtPositionY, evAbs, evKey]
      · simp [notTracking, notX, onY, decoder, evAbs, evKey]

/-- An event of an axis only moves the decoder. -/
theorem handleAbs_enqueued {state : State} (sound : state.Sound) {raw : InputEvent}
    (abs : raw.type = evAbs) :
    Enqueued state (state.handleAbs raw) [] (state.decoder.next raw) := by
  apply sound.quiet _ _ _ (handleAbs_decoder state abs)
  · simp only [handleAbs]
    split_ifs <;> rfl
  · simp only [handleAbs]
    split_ifs <;> rfl
  · simp only [handleAbs]
    split_ifs <;> rfl

/-- After a report the contact is the last word on it. -/
theorem decoder_report (state : State) {raw : InputEvent} (report : raw.isReport) :
    { state with isDown := state.newDown }.decoder = state.decoder.next raw := by
  simp [decoder, Decoder.next, report, report.1, InputEvent.isAxis, evSyn, evKey, evAbs]

/-- A report in a contact or leaving it enqueues its frame and remembers the contact. -/
theorem frame_enqueued {state : State} (sound : state.Sound)
    (room : state.queued.length + 5 ≤ 127) {raw : InputEvent} (report : raw.isReport)
    (contact : (state.isDown || state.newDown) = true) {major : Int32}
    (major_eq : major = if state.newDown then 100 else 0) :
    Enqueued state ({ state with isDown := state.newDown }.enqueueFrame major raw.sec raw.usec)
      ((state.decoder.frame raw).toList.flatMap TouchFrame.events) (state.decoder.next raw) := by
  have soundThere : { state with isDown := state.newDown }.Sound := ⟨sound.bounded, sound.kept⟩
  have enqueued := enqueueFrame_enqueued soundThere room major raw.sec raw.usec
  have produced : state.decoder.frame raw =
      some ⟨raw.sec, raw.usec, state.trackingId, state.lastX, state.lastY, major⟩ := by
    rw [Decoder.frame, if_pos ⟨report, contact⟩, major_eq]
    rfl
  rw [produced, ← decoder_report state report]
  refine ⟨enqueued.sound, ?_, enqueued.decoder_eq, enqueued.touchFd_eq⟩
  rw [enqueued.queued]
  rfl

/-- A report puts its frame into the ring, which has room for it. -/
theorem handleReport_enqueued {state : State} (sound : state.Sound)
    (room : state.queued.length + 5 ≤ 127) {raw : InputEvent} (report : raw.isReport) :
    Enqueued state (state.handleReport raw)
      ((state.decoder.frame raw).toList.flatMap TouchFrame.events) (state.decoder.next raw) := by
  have framed := @frame_enqueued state sound room raw report
  simp only [handleReport]
  cases down : state.isDown <;> cases new : state.newDown
  · have noFrame : state.decoder.frame raw = none := by
      simp [Decoder.frame, decoder, down, new]
    rw [noFrame]
    refine sound.quiet rfl rfl rfl ?_
    rw [← decoder_report state report]
    simp [decoder, down, new]
  · simpa [down, new] using framed (by simp [new]) rfl
  · simpa [down, new] using framed (by simp [down]) rfl
  · have unchanged : { state with isDown := state.newDown } = state := by
      cases state
      simp_all
    rw [unchanged] at framed
    simpa [down, new] using framed (by simp [down]) rfl

/-- One raw event does what the decoder says. -/
theorem handleRaw_enqueued {state : State} (sound : state.Sound)
    (room : state.queued.length + 5 ≤ 127) (raw : InputEvent) :
    Enqueued state (state.handleRaw raw)
      ((state.decoder.frame raw).toList.flatMap TouchFrame.events) (state.decoder.next raw) := by
  by_cases report : raw.isReport
  · have same : state.handleRaw raw = state.handleReport raw := by
      simp [handleRaw, report.1, report.2, evSyn, evAbs, evKey]
    rw [same]
    exact handleReport_enqueued sound room report
  · have noFrame : state.decoder.frame raw = none := by simp [Decoder.frame, report]
    rw [noFrame]
    have notSyn : ¬ (raw.type = evSyn ∧ raw.code = synReport) := report
    simp only [handleRaw, notSyn, if_false]
    split_ifs with abs key touch
    · exact handleAbs_enqueued sound abs
    · refine sound.quiet rfl rfl rfl ?_
      simp [decoder, Decoder.next, report, key, touch, InputEvent.isAxis, evKey, evAbs]
    · refine sound.quiet rfl rfl rfl ?_
      simp [decoder, Decoder.next, report, key, touch, InputEvent.isAxis, evKey, evAbs]
    · refine sound.quiet rfl rfl rfl ?_
      simp [decoder, Decoder.next, report, key, abs, InputEvent.isAxis]

/-- A batch does what the decoder says, five places at most for each of its events. -/
theorem handleBatch_enqueued {state : State} (sound : state.Sound) (raws : List InputEvent)
    (room : state.queued.length + 5 * raws.length ≤ 127) :
    Enqueued state (raws.foldl handleRaw state)
      ((state.decoder.frames raws).flatMap TouchFrame.events) (state.decoder.after raws) := by
  induction raws generalizing state with
  | nil => exact sound.enqueued
  | cons raw rest ih =>
      rw [List.length_cons] at room
      have first := handleRaw_enqueued sound (by omega) raw
      have few : ((state.decoder.frame raw).toList.flatMap TouchFrame.events).length ≤ 5 := by
        cases state.decoder.frame raw with
        | none => exact Nat.zero_le 5
        | some frame => exact Nat.le_refl 5
      have later := ih first.sound (by rw [first.queued, List.length_append]; omega)
      rw [first.decoder_eq] at later
      refine ⟨later.sound, ?_, later.decoder_eq, later.touchFd_eq.trans first.touchFd_eq⟩
      rw [List.foldl_cons, later.queued, first.queued, List.append_assoc, ← List.flatMap_append]
      rfl

/-- What is put into the ring in two steps. -/
theorem Enqueued.trans {first second third : State} {early late : List InputEvent}
    {between final : Decoder} (before : Enqueued first second early between)
    (after : Enqueued second third late final) : Enqueued first third (early ++ late) final := by
  refine ⟨after.sound, ?_, after.decoder_eq, after.touchFd_eq.trans before.touchFd_eq⟩
  rw [after.queued, before.queued, List.append_assoc]

end State

/-- The raw events of some replies. -/
def rawOf (replies : List Reply) : List InputEvent := replies.flatMap Reply.raw

namespace State

/-- The loop that fills the ring translates what it takes from the kernel. A batch is
taken only when the ring is empty, so its frames always find room. -/
theorem refill_enqueued {state : State} (sound : state.Sound) (replies : List Reply) :
    ∃ consumed, consumed ++ rawOf (state.refill replies).2.2 = rawOf replies ∧
      Enqueued state (state.refill replies).2.1
        ((state.decoder.frames consumed).flatMap TouchFrame.events)
        (state.decoder.after consumed) := by
  induction replies generalizing state with
  | nil =>
      refine ⟨[], ?_, ?_⟩
      · simp only [refill]
        split_ifs <;> rfl
      · simp only [refill]
        split_ifs <;> exact sound.enqueued
  | cons reply rest ih =>
      by_cases idle : state.queue.head = state.queue.tail
      · cases reply with
        | failed result notPositive =>
            refine ⟨[], ?_, ?_⟩
            · simp [refill, idle, rawOf, Reply.raw]
            · simp only [refill, idle, if_true]
              exact sound.enqueued
        | batch events nonempty fits =>
            have vacant : state.queued = [] := (queued_eq_nil_iff sound).mpr idle
            have batch := handleBatch_enqueued sound events (by rw [vacant]; simp; omega)
            obtain ⟨consumed, split, later⟩ := ih batch.sound
            rw [batch.decoder_eq] at later
            refine ⟨events ++ consumed, ?_, ?_⟩
            · simp only [refill, idle, if_true]
              rw [List.append_assoc, split]
              rfl
            · simp only [refill, idle, if_true]
              rw [Decoder.frames_append, List.flatMap_append, Decoder.after_append]
              exact batch.trans later
      · refine ⟨[], ?_, ?_⟩
        · simp [refill, idle]
        · simp only [refill, idle, if_false]
          exact sound.enqueued

/-- Copying out takes events from the front of the ring. -/
theorem copyOut_contents (room : Nat) {queue : RingBuffer InputEvent}
    (bounded : queue.Bounded shimQueueSize) :
    (copyOut room queue).1 ++ (copyOut room queue).2.contents shimQueueSize =
        queue.contents shimQueueSize ∧
      (copyOut room queue).2.Bounded shimQueueSize := by
  induction room generalizing queue with
  | zero => exact ⟨rfl, bounded⟩
  | succ room ih =>
      by_cases idle : queue.head = queue.tail
      · simp only [copyOut, idle, if_true]
        exact ⟨rfl, bounded⟩
      · obtain ⟨taken, boundedRest⟩ := ih bounded.drop
        simp only [copyOut, idle, if_false]
        refine ⟨?_, boundedRest⟩
        rw [List.cons_append, taken, ← bounded.contents_drop idle]

end State

/-- The events a call hands to Plato. -/
def ReadResult.events : ReadResult → List InputEvent
  | .copied events => events
  | _ => []

namespace State

/-- A read of the touch device fills the ring and hands out what the count allows. -/
theorem read_touchFd {state : State} (opened : 0 ≤ state.touchFd) (links : Bool) (count : UInt32)
    (replies : List Reply) :
    state.read state.touchFd links count replies =
      match state.refill replies with
      | (.waiting, state, rest) => (.waiting, state, rest)
      | (.failed result, state, rest) => (.failed result, state, rest)
      | (.ready, state, rest) =>
          (.copied (copyOut (count.toNat / eventSize) state.queue).1,
            { state with queue := (copyOut (count.toNat / eventSize) state.queue).2 }, rest) := by
  have notNegative : ¬ state.touchFd < 0 := by omega
  have touch : state.isTouchFd state.touchFd links = (true, state) := by
    simp [isTouchFd, notNegative]
  unfold read
  exact touch ▸ rfl

/-- What a call of `read` hands out and leaves in the ring is what was there, followed
by the translation of what the call took from the kernel. -/
theorem read_translates {state : State} (sound : state.Sound) (opened : 0 ≤ state.touchFd)
    (links : Bool) (count : UInt32) (replies : List Reply)
    {outcome : ReadResult × State × List Reply}
    (returned : state.read state.touchFd links count replies = outcome) :
    outcome.2.1.Sound ∧ outcome.2.1.touchFd = state.touchFd ∧
      ∃ consumed, consumed ++ rawOf outcome.2.2 = rawOf replies ∧
        outcome.1.events ++ outcome.2.1.queued =
          state.queued ++ (state.decoder.frames consumed).flatMap TouchFrame.events ∧
        outcome.2.1.decoder = state.decoder.after consumed := by
  obtain ⟨consumed, split, enqueued⟩ := refill_enqueued sound replies
  subst returned
  rw [read_touchFd opened]
  rcases filled : state.refill replies with ⟨ending, after, rest⟩
  rw [filled] at split enqueued
  cases ending with
  | waiting =>
      exact ⟨enqueued.sound, enqueued.touchFd_eq, consumed, split, enqueued.queued,
        enqueued.decoder_eq⟩
  | failed result =>
      exact ⟨enqueued.sound, enqueued.touchFd_eq, consumed, split, enqueued.queued,
        enqueued.decoder_eq⟩
  | ready =>
      obtain ⟨taken, bounded⟩ :=
        copyOut_contents (count.toNat / eventSize) enqueued.sound.bounded
      refine ⟨⟨bounded, enqueued.sound.kept⟩, enqueued.touchFd_eq, consumed, split, ?_,
        enqueued.decoder_eq⟩
      exact taken.trans enqueued.queued

/-- A call that finds events in the ring hands out at least one. -/
theorem read_progress {state : State} (sound : state.Sound) (opened : 0 ≤ state.touchFd)
    (waiting : state.queued ≠ []) (links : Bool) {count : UInt32}
    (room : eventSize ≤ count.toNat) (replies : List Reply) :
    (state.read state.touchFd links count replies).1.events ≠ [] := by
  have occupied : ¬ state.queue.head = state.queue.tail := by
    rwa [← queued_eq_nil_iff sound]
  have ready : state.refill replies = (.ready, state, replies) := by
    cases replies with
    | nil => simp [refill, occupied]
    | cons reply rest => simp [refill, occupied]
  obtain ⟨more, places⟩ : ∃ more, count.toNat / eventSize = more + 1 := by
    refine ⟨count.toNat / eventSize - 1, ?_⟩
    have positive : 0 < count.toNat / eventSize := Nat.div_pos room (by decide)
    omega
  rw [read_touchFd opened, ready]
  simp [ReadResult.events, places, copyOut, occupied]

/-- A call of `poll` that watches the touch device finds the events in the ring. -/
theorem poll_answers {state : State} (sound : state.Sound) (opened : 0 ≤ state.touchFd)
    (waiting : state.queued ≠ []) {entries : List PollFd}
    (watched : ∃ entry ∈ entries, entry.watches state.touchFd = true) :
    ∃ found marked, state.poll entries = .answered found marked ∧ 0 < found ∧
      ∀ (index : Nat) (entry : PollFd), entries[index]? = some entry →
        entry.watches state.touchFd = true →
        marked[index]? = some { entry with revents := pollIn } := by
  have occupied : state.queue.head ≠ state.queue.tail := by
    rwa [ne_eq, ← queued_eq_nil_iff sound]
  have positive : 0 < entries.countP fun entry => entry.watches state.touchFd :=
    List.countP_pos_iff.mpr watched
  refine ⟨_, entries.map fun entry =>
    { entry with revents := if entry.watches state.touchFd then pollIn else 0 }, ?_, positive, ?_⟩
  · simp only [poll]
    rw [if_pos ⟨opened, occupied⟩, if_pos positive]
  · intro index entry found watches
    rw [List.getElem?_map, found, Option.map_some, if_pos watches]

end State

/-! ## A session -/

/-- A number of bytes Plato asks for, room for at least one event. -/
abbrev Count := {count : UInt32 // eventSize ≤ count.toNat}

/-- The shim with the kernel behind it and Plato in front. -/
structure Session where
  shim : State
  /-- What the kernel will still reply. -/
  supply : List Reply
  /-- What Plato has been given so far. -/
  delivered : List InputEvent := []

namespace Session

/-- Plato reads the touch device. -/
def step (session : Session) (count : Count) : Session :=
  let outcome := session.shim.read session.shim.touchFd true count.val session.supply
  { shim := outcome.2.1
    supply := outcome.2.2
    delivered := session.delivered ++ outcome.1.events }

/-- Plato opens the touch device and gets the descriptor `fd`. -/
def machine (before : State) (fd : Nat) (supply : List Reply) : Machine Session Count where
  initial :=
    { shim := before.handleOpen (ascii "/dev/input/event1") fd
      supply := supply }
  step := step

/-- What Plato got and what the ring holds is the translation of what came from the
kernel. -/
structure InStep (fd : Nat) (whole : List InputEvent) (session : Session) : Prop where
  sound : session.shim.Sound
  touchFd_eq : session.shim.touchFd = fd
  conserved : ∃ consumed, consumed ++ rawOf session.supply = whole ∧
    session.delivered ++ session.shim.queued = translate consumed ∧
    session.shim.decoder = Decoder.after {} consumed

/-- A freshly opened device is in step with the kernel. -/
theorem inStep_initial (before : State) (fd : Nat) (supply : List Reply) :
    (machine before fd supply).initial.InStep fd (rawOf supply) := by
  have opened : before.handleOpen (ascii "/dev/input/event1") fd =
      { queue := { before.queue with head := 0, tail := 0 }, touchFd := fd } := by
    have named : (strstr (ascii "event1") (ascii "/dev/input/event1")).isSome := by decide
    rw [State.handleOpen, if_pos ⟨Int.natCast_nonneg fd, named⟩]
  simp only [machine, opened]
  refine ⟨⟨⟨?_, ?_⟩, rfl⟩, rfl, [], rfl, rfl, rfl⟩
  · exact Nat.zero_lt_succ 127
  · exact Nat.zero_lt_succ 127

/-- A read keeps the session in step. -/
theorem inStep_step {fd : Nat} {whole : List InputEvent} {session : Session}
    (inStep : session.InStep fd whole) (count : Count) : (session.step count).InStep fd whole := by
  obtain ⟨sound, touchFd_eq, consumed, split, conserved, decoder_eq⟩ := inStep
  have opened : 0 ≤ session.shim.touchFd := by omega
  obtain ⟨soundAfter, fdAfter, taken, splitAfter, translated, decoderAfter⟩ :=
    State.read_translates sound opened true count.val session.supply rfl
  refine ⟨soundAfter, fdAfter.trans touchFd_eq, consumed ++ taken, ?_, ?_, ?_⟩
  · rw [List.append_assoc, ← split, ← splitAfter]
    rfl
  · rw [translate_append, ← conserved, ← decoder_eq, List.append_assoc, ← translated,
      ← List.append_assoc]
    rfl
  · rw [Decoder.after_append, ← decoder_eq]
    exact decoderAfter

/-- The session so far has lost nothing of the raw stream `whole` and Plato is told of
what it has not taken yet. -/
structure Lossless (fd : Nat) (whole : List InputEvent) (session : Session) : Prop where
  /-- Only the queued tail of what the kernel has delivered is missing. -/
  conserved : ∃ consumed, consumed ++ rawOf session.supply = whole ∧
    session.delivered ++ session.shim.queued = translate consumed
  delivered_prefix : session.delivered <+: translate whole
  never_overwrites : session.shim.overwritten = false
  polled : session.shim.queued ≠ [] →
    ∀ entries : List PollFd, (∃ entry ∈ entries, entry.watches fd = true) →
      ∃ found marked, session.shim.poll entries = .answered found marked ∧ 0 < found ∧
        ∀ (index : Nat) (entry : PollFd), entries[index]? = some entry → entry.watches fd = true →
          marked[index]? = some { entry with revents := pollIn }
  handsOut : session.shim.queued ≠ [] →
    ∀ count : Count, session.delivered.length < (session.step count).delivered.length

/-- In step, nothing is lost or made up on the way to Plato. -/
theorem InStep.lossless {fd : Nat} {whole : List InputEvent} {session : Session}
    (inStep : session.InStep fd whole) : session.Lossless fd whole := by
  obtain ⟨sound, touchFd_eq, consumed, split, conserved, decoder_eq⟩ := inStep
  have opened : 0 ≤ session.shim.touchFd := by omega
  refine ⟨⟨consumed, split, conserved⟩, ?_, sound.kept, ?_, ?_⟩
  · rw [← split, translate_append, ← conserved, List.append_assoc]
    exact List.prefix_append _ _
  · intro waiting entries watched
    rw [← touchFd_eq] at watched ⊢
    exact State.poll_answers sound opened waiting watched
  · intro waiting count
    have progress := State.read_progress sound opened waiting true count.property session.supply
    rw [step, List.length_append]
    have longer := List.length_pos_of_ne_nil progress
    omega

/-- Plato gets a prefix of the translation of the raw stream, whatever the state of the
shim before the device was opened, however the kernel cuts the stream and however much
Plato asks for at a time. -/
theorem plato_read_lossless (before : State) (fd : Nat) (supply : List Reply)
    (counts : List Count) :
    (machine before fd supply).Always (Lossless fd (rawOf supply))
      (machine before fd supply).initial counts := by
  apply Machine.always_of_invariant (InStep fd (rawOf supply))
  · intro session inStep
    exact inStep.lossless
  · intro session count inStep
    exact inStep_step inStep count
  · exact inStep_initial before fd supply

end Session

/-! ## Contacts -/

/-- The sizes reported for some finished contacts, each with at least one frame down
and one frame that lifts, and for one that still lasts. -/
def contactMajors (finished : List Nat) (lasting : Nat) : List Int32 :=
  finished.flatMap (fun more => List.replicate (more + 1) 100 ++ [0]) ++
    List.replicate lasting 100

/-- The sizes of a stream of well-formed contacts. -/
def Contacts (majors : List Int32) : Prop :=
  ∃ finished lasting, majors = contactMajors finished lasting

/-- A contact that lasts may have begun one frame earlier. -/
theorem Contacts.longer {majors : List Int32} (contacts : Contacts (100 :: majors)) :
    Contacts (100 :: 100 :: majors) := by
  obtain ⟨finished, lasting, shape⟩ := contacts
  rw [shape]
  cases finished with
  | nil => exact ⟨[], lasting + 1, rfl⟩
  | cons more rest => exact ⟨(more + 1) :: rest, lasting, rfl⟩

/-- A contact of one frame, lifted, before others. -/
theorem Contacts.tap {majors : List Int32} (contacts : Contacts majors) :
    Contacts (100 :: 0 :: majors) := by
  obtain ⟨finished, lasting, shape⟩ := contacts
  rw [shape]
  exact ⟨0 :: finished, lasting, rfl⟩

namespace Decoder

/-- The sizes in the frames, after one for a contact that already lasts. -/
def majors (decoder : Decoder) (raws : List InputEvent) : List Int32 :=
  (if decoder.isDown then [100] else []) ++ (decoder.frames raws).map TouchFrame.major

/-- The sizes of a stream are those of well-formed contacts. -/
theorem majors_contacts (decoder : Decoder) (raws : List InputEvent) :
    Contacts (decoder.majors raws) := by
  induction raws generalizing decoder with
  | nil =>
      cases down : decoder.isDown with
      | false => exact ⟨[], 0, by simp [majors, frames, contactMajors, down]⟩
      | true => exact ⟨[], 1, by simp [majors, frames, contactMajors, down]⟩
  | cons raw rest ih =>
      have later := ih (decoder.next raw)
      by_cases report : raw.isReport
      · have nextDown : (decoder.next raw).isDown = decoder.newDown := if_pos report
        simp only [majors, frames, List.map_append, nextDown] at later ⊢
        -- the latched and the pending contact decide between no frame, touch, hold and lift
        cases down : decoder.isDown <;> cases new : decoder.newDown <;>
          simp only [frame, report, down, new] at later ⊢
        · exact later
        · exact later
        · exact later.tap
        · exact later.longer
      · have nextDown : (decoder.next raw).isDown = decoder.isDown := if_neg report
        have noFrame : decoder.frame raw = none := by simp [frame, report]
        simp only [majors, nextDown] at later
        simp only [majors, frames, noFrame]
        exact later

/-- Every frame comes from one report, with the decoder as it then was. -/
theorem exists_report_of_frame (decoder : Decoder) (raws : List InputEvent) {index : Nat}
    {produced : TouchFrame} (found : (decoder.frames raws)[index]? = some produced) :
    ∃ before report after, raws = before ++ report :: after ∧ report.isReport ∧
      (decoder.frames before).length = index ∧
      (decoder.after before).frame report = some produced := by
  induction raws generalizing decoder index with
  | nil => simp [frames] at found
  | cons raw rest ih =>
      simp only [frames] at found
      cases here : decoder.frame raw with
      | none =>
          rw [here] at found
          obtain ⟨before, report, after, split, reports, count, frame_eq⟩ := ih _ found
          refine ⟨raw :: before, report, after, ?_, reports, ?_, frame_eq⟩
          · rw [split, List.cons_append]
          · simp [frames, here, count]
      | some first =>
          rw [here] at found
          cases index with
          | zero =>
              have reports : raw.isReport := by
                by_contra other
                simp [frame, other] at here
              refine ⟨[], raw, rest, rfl, reports, rfl, ?_⟩
              simp only [Option.toList_some, List.cons_append, List.getElem?_cons_zero] at found
              rw [after_nil, here, found]
          | succ index =>
              simp only [Option.toList_some, List.cons_append, List.nil_append,
                List.getElem?_cons_succ] at found
              obtain ⟨before, report, after, split, reports, count, frame_eq⟩ := ih _ found
              refine ⟨raw :: before, report, after, ?_, reports, ?_, frame_eq⟩
              · rw [split, List.cons_append]
              · simp [frames, here, count]

end Decoder

/-- The last value of an axis in a stream, `initial` if there is none. -/
def lastValue (axis : UInt16) (initial : Int32) (raws : List InputEvent) : Int32 :=
  ((raws.filter fun raw => raw.isAxis axis).getLast?.map InputEvent.value).getD initial

/-- The first event sets the value that the rest of a stream may overwrite. -/
theorem lastValue_cons (axis : UInt16) (initial : Int32) (raw : InputEvent)
    (rest : List InputEvent) :
    lastValue axis initial (raw :: rest) =
      lastValue axis (if raw.isAxis axis then raw.value else initial) rest := by
  by_cases gives : raw.isAxis axis
  · simp only [lastValue, gives, decide_true, List.filter_cons_of_pos, List.getLast?_cons, if_true]
    cases (rest.filter fun raw => decide (raw.isAxis axis)).getLast? <;> rfl
  · simp [lastValue, gives]

/-- The position is the last one the stream gave on each axis. -/
theorem Decoder.after_position (decoder : Decoder) (raws : List InputEvent) :
    (decoder.after raws).lastX = lastValue absMtPositionX decoder.lastX raws ∧
      (decoder.after raws).lastY = lastValue absMtPositionY decoder.lastY raws := by
  induction raws generalizing decoder with
  | nil => exact ⟨rfl, rfl⟩
  | cons raw rest ih =>
      rw [after_cons, lastValue_cons, lastValue_cons]
      exact ih (decoder.next raw)

namespace Session

/-- The stream translated so far is one of complete frames, in well-formed contacts,
each with the position last given before its report. -/
def WellFormed (whole : List InputEvent) (session : Session) : Prop :=
  ∃ (consumed : List InputEvent) (frames : List TouchFrame),
    consumed ++ rawOf session.supply = whole ∧
    session.delivered ++ session.shim.queued = frames.flatMap TouchFrame.events ∧
    Contacts (frames.map TouchFrame.major) ∧
    ∀ (index : Nat) (frame : TouchFrame), frames[index]? = some frame →
      ∃ before report after, consumed = before ++ report :: after ∧ report.isReport ∧
        translate before = (frames.take index).flatMap TouchFrame.events ∧
        translate (before ++ [report]) = (frames.take (index + 1)).flatMap TouchFrame.events ∧
        frame.x = lastValue absMtPositionX 0 before ∧ frame.y = lastValue absMtPositionY 0 before

/-- In step, what Plato has got is well formed. -/
theorem InStep.wellFormed {fd : Nat} {whole : List InputEvent} {session : Session}
    (inStep : session.InStep fd whole) : session.WellFormed whole := by
  obtain ⟨sound, touchFd_eq, consumed, split, conserved, decoder_eq⟩ := inStep
  refine ⟨consumed, Decoder.frames {} consumed, split, conserved,
    Decoder.majors_contacts {} consumed, ?_⟩
  intro index frame found
  obtain ⟨before, report, after, cut, reports, count, produced⟩ :=
    Decoder.exists_report_of_frame {} consumed found
  obtain ⟨xAfter, yAfter⟩ := Decoder.after_position {} before
  have single : Decoder.frames {} (before ++ [report]) = Decoder.frames {} before ++ [frame] := by
    rw [Decoder.frames_append, Decoder.frames, produced]
    rfl
  have all : Decoder.frames {} consumed = (Decoder.frames {} before ++ [frame]) ++
      (Decoder.after {} (before ++ [report])).frames after := by
    rw [cut, ← single, ← Decoder.frames_append, List.append_assoc, List.singleton_append]
  have position : frame.x = (Decoder.after {} before).lastX ∧
      frame.y = (Decoder.after {} before).lastY := by
    rw [Decoder.frame] at produced
    split at produced
    · rw [← Option.some.inj produced]
      exact ⟨rfl, rfl⟩
    · cases produced
  refine ⟨before, report, after, cut, reports, ?_, ?_, position.1.trans xAfter,
    position.2.trans yAfter⟩
  · rw [all, List.append_assoc, List.take_left' count]
    rfl
  · rw [all, List.take_left' (by rw [List.length_append, count, List.length_singleton]), ← single]
    rfl

/-- The translated stream is well formed for every raw stream, cut into batches and read
in any way. -/
theorem plato_contacts_wellFormed (before : State) (fd : Nat) (supply : List Reply)
    (counts : List Count) :
    (machine before fd supply).Always (WellFormed (rawOf supply))
      (machine before fd supply).initial counts := by
  apply Machine.always_of_invariant (InStep fd (rawOf supply))
  · intro session inStep
    exact inStep.wellFormed
  · intro session count inStep
    exact inStep_step inStep count
  · exact inStep_initial before fd supply

end Session

end Nookobo.Plato
