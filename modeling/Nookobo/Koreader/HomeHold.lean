import Nookobo.Koreader.Model

/-!
# KOReader's Home handler over many presses

Each press of Home schedules a function half a second later and nothing ever
takes it back. The function asks whether Home is down, not whether it is the
press that scheduled it, so a function left over from a tap can find a later
press held and open the frontlight dialog for it.

`Hold` is the handler together with what an observer writes down: the presses,
numbered, each dialog with the time and the press it was opened in, and the
presses whose release returned Home. Time is counted in units of which half a
second has `half`; in milliseconds it is the handler of `Reader`. `home_holds_real`
says that each press ends in the dialog or in Home, one of them and once, on
every run, and that the dialogs answer real holds along exactly those runs on
which no function falls due in the first half second of a later press.
-/

namespace Nookobo.Koreader

open Nookobo.Semantics

/-- One opening of the frontlight dialog. -/
structure Dialog where
  time : Nat
  /-- The press during which it was opened. -/
  press : Nat
  /-- Since when Home had been down. -/
  since : Option Nat
deriving DecidableEq, Repr

/-- The handler with what can be said of its presses. -/
structure Hold where
  /-- `home_down_ts`. -/
  homeDownTs : Option Nat := none
  homeLongFired : Bool := false
  /-- When the functions that were scheduled and have not run are due. -/
  tasks : List Nat := []
  outcomes : List Outcome := []
  clock : Nat := 0
  /-- Since when the key is down. -/
  heldSince : Option Nat := none
  /-- How often it went down. -/
  presses : Nat := 0
  dialogs : List Dialog := []
  /-- The presses whose release returned Home. -/
  navigations : List Nat := []

/-- What can happen next. -/
inductive HomeMoment where
  | press (time : Nat)
  | release (time : Nat)
  /-- The function that was scheduled first runs at its time. -/
  | scheduled
deriving DecidableEq, Repr

namespace Hold

/-- The number of the last press. -/
def current (hold : Hold) : Nat := hold.presses - 1

/-- The scheduled function. -/
def longPress (hold : Hold) : Hold :=
  if hold.homeDownTs.isSome && !hold.homeLongFired then
    { hold with
      homeLongFired := true
      outcomes := hold.outcomes ++ [.dialog]
      dialogs := hold.dialogs ++ [⟨hold.clock, hold.current, hold.heldSince⟩] }
  else hold

/-- `event_map_adapter.Home` on a press. -/
def press (half time : Nat) (hold : Hold) : Hold :=
  { hold with
    homeDownTs := some time
    homeLongFired := false
    tasks := hold.tasks ++ [time + half]
    clock := time
    heldSince := some time
    presses := hold.presses + 1 }

/-- `event_map_adapter.Home` on a release. -/
def release (time : Nat) (hold : Hold) : Hold :=
  let hold := { hold with homeDownTs := none, clock := time, heldSince := none }
  if hold.homeLongFired then { hold with homeLongFired := false }
  else
    { hold with
      outcomes := hold.outcomes ++ [.navigation]
      navigations := hold.navigations ++ [hold.current] }

/-- The first scheduled function leaves the queue and runs. -/
def runNext (hold : Hold) : Hold :=
  match hold.tasks with
  | [] => hold
  | due :: rest => { hold with tasks := rest, clock := due }.longPress

/-- What happens next. -/
def advance (half : Nat) (hold : Hold) : HomeMoment → Hold
  | .press time => hold.press half time
  | .release time => hold.release time
  | .scheduled => hold.runNext

/-- Presses and releases alternate, time does not go back, and no event passes a function that
is due before it. -/
def Legal (hold : Hold) : HomeMoment → Prop
  | .press time =>
      hold.heldSince = none ∧ hold.clock ≤ time ∧ ∀ due ∈ hold.tasks, time ≤ due
  | .release time =>
      hold.heldSince.isSome = true ∧ hold.clock ≤ time ∧ ∀ due ∈ hold.tasks, time ≤ due
  | .scheduled => hold.tasks ≠ []

instance : (hold : Hold) → (moment : HomeMoment) → Decidable (hold.Legal moment)
  | _, .press _ => inferInstanceAs (Decidable (_ ∧ _))
  | _, .release _ => inferInstanceAs (Decidable (_ ∧ _))
  | _, .scheduled => inferInstanceAs (Decidable (_ ≠ _))

/-! ## The handler in milliseconds -/

/-- What the handler itself keeps. -/
def reader (hold : Hold) : Reader where
  homeDownTs := hold.homeDownTs
  homeLongFired := hold.homeLongFired
  tasks := hold.tasks
  outcomes := hold.outcomes

/-- The scheduled function does to the handler what it does in `Reader`. -/
theorem reader_longPress (hold : Hold) : hold.longPress.reader = hold.reader.longPress := by
  by_cases opens : (hold.homeDownTs.isSome && !hold.homeLongFired) = true
  · simp [longPress, Reader.longPress, reader, opens]
  · simp [longPress, Reader.longPress, reader, opens]

/-- A release does to the handler what it does in `Reader`. -/
theorem reader_release (time : Nat) (hold : Hold) :
    (hold.release time).reader = hold.reader.home time 0 := by
  by_cases fired : hold.homeLongFired = true
  · simp [release, Reader.home, reader, fired]
  · simp [release, Reader.home, reader, fired]

/-- With half a second of 500 ms the handler is that of `Reader`, whose functions run as they
do here: the first that is due, then the others. -/
theorem reader_follows (hold : Hold) :
    (∀ time, (hold.press 500 time).reader = hold.reader.home time 1) ∧
      (∀ time, (hold.release time).reader = hold.reader.home time 0) ∧
      ∀ (ready : Nat → Bool) (due : Nat) (rest : List Nat), hold.tasks = due :: rest →
        ready due = true → hold.reader.runTasks ready = hold.runNext.reader.runTasks ready := by
  refine ⟨fun time => rfl, fun time => hold.reader_release time, ?_⟩
  intro ready due rest tasks isReady
  -- the function does not look at the queue it has left
  have apart : ∀ (reader : Reader) (queue : List Nat),
      { reader with tasks := queue }.longPress = { reader.longPress with tasks := queue } := by
    intro reader queue
    unfold Reader.longPress
    dsimp only
    split <;> rfl
  have next : hold.runNext.reader = { hold.reader.longPress with tasks := rest } := by
    unfold runNext
    rw [tasks]
    exact (reader_longPress _).trans (apart hold.reader rest)
  have queue : hold.reader.tasks = due :: rest := tasks
  rw [next]
  unfold Reader.runTasks
  rw [queue, List.filter_cons_of_pos isReady, List.foldl_cons, apart]
  simp only [isReady, Bool.not_true, Bool.false_eq_true, not_false_eq_true,
    List.filter_cons_of_neg]

/-! ## What an observer expects -/

/-- The dialogs opened during a press. -/
def dialogsOf (hold : Hold) (press : Nat) : Nat :=
  hold.dialogs.countP fun dialog => dialog.press == press

/-- The press has ended. -/
def Released (hold : Hold) (press : Nat) : Prop :=
  press + 1 < hold.presses ∨ press < hold.presses ∧ hold.heldSince = none

/-- Every dialog answers a hold of half a second, a press opens it at most once, and a press
that has ended has opened it or returned Home, not both and not neither. -/
def Honest (half : Nat) (hold : Hold) : Prop :=
  (∀ dialog ∈ hold.dialogs, ∃ since ∈ dialog.since, since + half ≤ dialog.time) ∧
    (∀ press < hold.presses, hold.dialogsOf press ≤ 1) ∧
    ∀ press < hold.presses, hold.Released press →
      hold.dialogsOf press + hold.navigations.count press = 1

/-- No function falls due in the first half second of a later press. -/
def OwnFunction (half : Nat) (hold : Hold) (moment : HomeMoment) : Prop :=
  moment = .scheduled →
    ∀ due ∈ hold.tasks.head?, ∀ since ∈ hold.heldSince, since + half ≤ due

instance (hold : Hold) (press : Nat) : Decidable (hold.Released press) :=
  inferInstanceAs (Decidable (_ ∨ _))

instance (half : Nat) (hold : Hold) : Decidable (hold.Honest half) :=
  inferInstanceAs (Decidable (_ ∧ _))

instance (half : Nat) (hold : Hold) (moment : HomeMoment) :
    Decidable (hold.OwnFunction half moment) :=
  inferInstanceAs (Decidable (_ → _))

end Hold

/-- The handler from the start of KOReader. -/
def homeMachine (half : Nat) : Machine Hold HomeMoment where
  initial := {}
  step := Hold.advance half

namespace Hold

variable {half : Nat} {hold : Hold}

/-- How the presses stand: those that have ended came to one thing, the one that is held opened
the dialog if the flag says so and has not returned Home, those to come did nothing. -/
structure Counted (hold : Hold) : Prop where
  same : hold.homeDownTs = hold.heldSince
  fired : hold.homeLongFired = true → hold.heldSince.isSome = true
  ended : ∀ press, hold.Released press →
    hold.dialogsOf press ≤ 1 ∧ hold.dialogsOf press + hold.navigations.count press = 1
  held : hold.heldSince.isSome = true → 0 < hold.presses ∧
    hold.dialogsOf hold.current = hold.homeLongFired.toNat ∧
    hold.navigations.count hold.current = 0
  fresh : ∀ press, hold.presses ≤ press →
    hold.dialogsOf press = 0 ∧ hold.navigations.count press = 0

/-- Every function waiting is due now or later, at most half a second from now, in order. -/
structure Queued (half : Nat) (hold : Hold) : Prop where
  due : ∀ due ∈ hold.tasks, hold.clock ≤ due ∧ due ≤ hold.clock + half
  sorted : hold.tasks.Pairwise (· ≤ ·)

/-! ### The fields after a release and after a scheduled function -/

/-- A release clears everything but the record. -/
theorem release_fields (hold : Hold) (time : Nat) :
    (hold.release time).homeDownTs = none ∧ (hold.release time).heldSince = none ∧
      (hold.release time).homeLongFired = false ∧ (hold.release time).tasks = hold.tasks ∧
      (hold.release time).clock = time ∧ (hold.release time).presses = hold.presses ∧
      (hold.release time).dialogs = hold.dialogs := by
  cases fired : hold.homeLongFired with
  | true => simp [release, fired]
  | false => simp [release, fired]

/-- A release navigates for the last press, unless its dialog was shown. -/
theorem release_navigations (hold : Hold) (time press : Nat) :
    (hold.release time).navigations.count press = hold.navigations.count press +
      if hold.homeLongFired = false ∧ press = hold.current then 1 else 0 := by
  cases fired : hold.homeLongFired with
  | true => simp [release, fired]
  | false =>
      have written : (hold.release time).navigations = hold.navigations ++ [hold.current] := by
        simp [release, fired, current]
      rw [written, List.count_append, List.count_singleton]
      by_cases own : press = hold.current
      · simp [own]
      · simp [own, Ne.symm own]

/-- The function opens the dialog, or does nothing. -/
theorem longPress_cases (hold : Hold) :
    (hold.homeDownTs.isSome = true ∧ hold.homeLongFired = false ∧
      hold.longPress =
        { hold with
          homeLongFired := true
          outcomes := hold.outcomes ++ [.dialog]
          dialogs := hold.dialogs ++ [⟨hold.clock, hold.current, hold.heldSince⟩] }) ∨
    ((hold.homeDownTs.isSome = true → hold.homeLongFired = true) ∧ hold.longPress = hold) := by
  unfold longPress
  split
  · next opens =>
    rw [Bool.and_eq_true, Bool.not_eq_true'] at opens
    exact .inl ⟨opens.1, opens.2, rfl⟩
  · next idle =>
    rw [Bool.and_eq_true, Bool.not_eq_true', not_and, Bool.not_eq_false] at idle
    exact .inr ⟨idle, rfl⟩

namespace Counted

/-- Before any press there is nothing to count. -/
theorem start : Counted {} where
  same := rfl
  fired := fun fired => absurd fired Bool.false_ne_true
  ended := by
    rintro press (more | ⟨less, _⟩)
    · exact absurd more (Nat.not_lt_zero _)
    · exact absurd less (Nat.not_lt_zero _)
  held := fun held => absurd held Bool.false_ne_true
  fresh := fun press _ => ⟨rfl, rfl⟩

/-- A new press has neither dialog nor navigation. -/
theorem press (counted : hold.Counted) (up : hold.heldSince = none) (time : Nat) :
    (hold.press half time).Counted := by
  constructor
  · rfl
  · exact fun _ => rfl
  · intro press ended
    apply counted.ended press
    rcases ended with more | ⟨_, isUp⟩
    · exact .inr ⟨Nat.lt_of_succ_lt_succ more, up⟩
    · exact absurd isUp (by simp [Hold.press])
  · intro _
    obtain ⟨dialogs, navigations⟩ := counted.fresh hold.presses (Nat.le_refl _)
    exact ⟨Nat.succ_pos _, dialogs, navigations⟩
  · intro press later
    exact counted.fresh press (Nat.le_of_succ_le later)

/-- A press that is held is the last one, and those before it have ended. -/
theorem released_or_current (counted : hold.Counted) (down : hold.heldSince.isSome = true)
    {press : Nat} (less : press < hold.presses) :
    press ≠ hold.current ∧ hold.Released press ∨ press = hold.current := by
  have positive := (counted.held down).1
  unfold Released current
  omega

/-- A released press has one of the two. -/
theorem release (counted : hold.Counted) (down : hold.heldSince.isSome = true) (time : Nat) :
    (hold.release time).Counted := by
  obtain ⟨ts, up, notFired, _, _, presses, dialogs⟩ := hold.release_fields time
  have sameDialogs : ∀ press, (hold.release time).dialogsOf press = hold.dialogsOf press := by
    intro press
    unfold dialogsOf
    rw [dialogs]
  obtain ⟨positive, ownDialogs, ownNavigations⟩ := counted.held down
  have isLast : hold.current < hold.presses := by
    unfold current
    omega
  constructor
  · rw [ts, up]
  · exact fun fired => absurd fired (by simp [notFired])
  · intro press ended
    have less : press < hold.presses := by
      unfold Released at ended
      rw [presses] at ended
      omega
    rw [sameDialogs, release_navigations]
    rcases counted.released_or_current down less with ⟨other, before⟩ | rfl
    · simpa [other] using counted.ended press before
    · rw [ownDialogs, ownNavigations]
      cases hold.homeLongFired with
      | true => simp
      | false => simp
  · exact fun down => absurd down (by simp [up])
  · intro press later
    rw [presses] at later
    obtain ⟨noDialogs, noNavigations⟩ := counted.fresh press later
    rw [sameDialogs, release_navigations, noDialogs, noNavigations]
    have other : press ≠ hold.current := by omega
    simp [other]

/-- The scheduled function shows one dialog, for the last press, and only while it is held. -/
theorem longPress (counted : hold.Counted) : hold.longPress.Counted := by
  rcases hold.longPress_cases with ⟨down, notFired, opened⟩ | ⟨_, idle⟩
  · have held : hold.heldSince.isSome = true := by
      rw [← counted.same]
      exact down
    obtain ⟨positive, ownDialogs, ownNavigations⟩ := counted.held held
    have counts : ∀ press, hold.longPress.dialogsOf press =
        hold.dialogsOf press + if hold.current = press then 1 else 0 := by
      intro press
      unfold dialogsOf
      rw [opened, List.countP_append, List.countP_singleton]
      simp
    have isLast : hold.current < hold.presses := by
      unfold current
      omega
    have others : hold.longPress.heldSince = hold.heldSince ∧
        hold.longPress.presses = hold.presses ∧
        hold.longPress.navigations = hold.navigations := by
      rw [opened]
      exact ⟨rfl, rfl, rfl⟩
    obtain ⟨sameHeld, samePresses, sameNavigations⟩ := others
    have sameCurrent : hold.longPress.current = hold.current := by
      unfold current
      rw [samePresses]
    constructor
    · rw [sameHeld, ← counted.same, opened]
    · rw [sameHeld]
      exact fun _ => held
    · intro press ended
      have before : hold.Released press := by
        unfold Released at ended ⊢
        rwa [sameHeld, samePresses] at ended
      have other : hold.current ≠ press := by
        rintro rfl
        rcases before with more | ⟨_, isUp⟩
        · unfold current at more
          omega
        · rw [isUp] at held
          exact absurd held Bool.false_ne_true
      rw [counts press, sameNavigations]
      simpa [other] using counted.ended press before
    · rw [sameHeld, samePresses, sameCurrent, counts, ownDialogs, sameNavigations, notFired]
      intro _
      refine ⟨positive, ?_, ownNavigations⟩
      rw [opened]
      simp
    · intro press later
      rw [samePresses] at later
      obtain ⟨noDialogs, noNavigations⟩ := counted.fresh press later
      have other : hold.current ≠ press := by omega
      rw [counts press, noDialogs, sameNavigations]
      simpa [other] using noNavigations
  · rw [idle]
    exact counted

/-- Whichever function runs keeps the count. -/
theorem runNext (counted : hold.Counted) : hold.runNext.Counted := by
  unfold Hold.runNext
  split
  · exact counted
  · next due rest tasks =>
    have moved : ({ hold with tasks := rest, clock := due } : Hold).Counted :=
      ⟨counted.same, counted.fired, counted.ended, counted.held, counted.fresh⟩
    exact moved.longPress

/-- Every legal step keeps the count. -/
theorem advance (counted : hold.Counted) {moment : HomeMoment} (legal : hold.Legal moment) :
    (hold.advance half moment).Counted := by
  cases moment with
  | press time => exact counted.press legal.1 time
  | release time => exact counted.release legal.1 time
  | scheduled => exact counted.runNext

end Counted

/-- The function changes neither the queue nor the clock. -/
theorem longPress_time (hold : Hold) :
    hold.longPress.tasks = hold.tasks ∧ hold.longPress.clock = hold.clock ∧
      hold.longPress.heldSince = hold.heldSince := by
  rcases hold.longPress_cases with ⟨_, _, opened⟩ | ⟨_, idle⟩
  · rw [opened]
    exact ⟨rfl, rfl, rfl⟩
  · rw [idle]
    exact ⟨rfl, rfl, rfl⟩

namespace Queued

/-- A press schedules its function behind the others. -/
theorem press (queued : hold.Queued half) {time : Nat} (later : hold.clock ≤ time)
    (first : ∀ due ∈ hold.tasks, time ≤ due) : (hold.press half time).Queued half := by
  constructor
  · intro due member
    change time ≤ due ∧ due ≤ time + half
    rcases List.mem_append.mp member with old | new
    · have bound := (queued.due due old).2
      exact ⟨first due old, by omega⟩
    · rw [List.mem_singleton.mp new]
      omega
  · refine List.pairwise_append.mpr ⟨queued.sorted, List.pairwise_singleton _ _, ?_⟩
    intro due member last isLast
    have bound := (queued.due due member).2
    rw [List.mem_singleton.mp isLast]
    omega

/-- A release leaves the queue alone. -/
theorem release (queued : hold.Queued half) {time : Nat} (later : hold.clock ≤ time)
    (first : ∀ due ∈ hold.tasks, time ≤ due) : (hold.release time).Queued half := by
  obtain ⟨_, _, _, tasks, clock, _⟩ := hold.release_fields time
  constructor
  · rw [tasks, clock]
    intro due member
    have bound := (queued.due due member).2
    exact ⟨first due member, by omega⟩
  · rw [tasks]
    exact queued.sorted

/-- The first function leaves the queue. -/
theorem runNext (queued : hold.Queued half) : hold.runNext.Queued half := by
  unfold Hold.runNext
  split
  · exact queued
  · next due rest tasks =>
    obtain ⟨sameTasks, sameClock, _⟩ := longPress_time { hold with tasks := rest, clock := due }
    have sorted := queued.sorted
    rw [tasks, List.pairwise_cons] at sorted
    have now := (queued.due due (by simp [tasks])).1
    constructor
    · rw [sameTasks, sameClock]
      intro later member
      have bound := (queued.due later (by simp [tasks, member])).2
      have order := sorted.1 later member
      exact ⟨order, Nat.le_trans bound (Nat.add_le_add_right now half)⟩
    · rw [sameTasks]
      exact sorted.2

/-- Every legal step keeps the queue in order. -/
theorem advance (queued : hold.Queued half) {moment : HomeMoment} (legal : hold.Legal moment) :
    (hold.advance half moment).Queued half := by
  cases moment with
  | press time => exact queued.press legal.2.1 legal.2.2
  | release time => exact queued.release legal.2.1 legal.2.2
  | scheduled => exact queued.runNext

end Queued

/-- Every dialog so far answers a hold, and so does the one of the press that is held. -/
structure Genuine (half : Nat) (hold : Hold) : Prop where
  real : ∀ dialog ∈ hold.dialogs, ∃ since ∈ dialog.since, since + half ≤ dialog.time
  spent : hold.homeLongFired = true → ∀ since ∈ hold.heldSince, since + half ≤ hold.clock

/-- A function of the press that is held shows its dialog half a second after it. -/
theorem Genuine.runNext (genuine : hold.Genuine half) (counted : hold.Counted)
    (queued : hold.Queued half) (own : hold.OwnFunction half .scheduled) :
    hold.runNext.Genuine half := by
  unfold Hold.runNext
  split
  · exact genuine
  · next due rest tasks =>
    have now := (queued.due due (by simp [tasks])).1
    have inTime : ∀ since ∈ hold.heldSince, since + half ≤ due := own rfl due (by simp [tasks])
    rcases longPress_cases { hold with tasks := rest, clock := due } with
      ⟨down, _, opened⟩ | ⟨_, idle⟩
    · rw [opened]
      refine ⟨?_, fun _ => inTime⟩
      intro dialog member
      rcases List.mem_append.mp member with old | new
      · exact genuine.real dialog old
      · rw [List.mem_singleton.mp new]
        have held : hold.heldSince.isSome = true := by
          rw [← counted.same]
          exact down
        obtain ⟨since, isSince⟩ := Option.isSome_iff_exists.mp held
        exact ⟨since, isSince, inTime since isSince⟩
    · rw [idle]
      refine ⟨genuine.real, fun fired since isSince => ?_⟩
      exact Nat.le_trans (genuine.spent fired since isSince) now

/-- A step that runs a press's own function keeps every dialog genuine. -/
theorem Genuine.advance (genuine : hold.Genuine half) (counted : hold.Counted)
    (queued : hold.Queued half) {moment : HomeMoment} (own : hold.OwnFunction half moment) :
    (hold.advance half moment).Genuine half := by
  cases moment with
  | press time => exact ⟨genuine.real, fun fired => absurd fired Bool.false_ne_true⟩
  | release time =>
      obtain ⟨_, _, notFired, _, _, _, dialogs⟩ := hold.release_fields time
      constructor
      · unfold Hold.advance
        rw [dialogs]
        exact genuine.real
      · exact fun fired => absurd fired (by simp [Hold.advance, notFired])
  | scheduled => exact genuine.runNext counted queued own

/-- A function that falls due early in a later press opens the dialog. -/
theorem Genuine.broken (genuine : hold.Genuine half) (counted : hold.Counted)
    (queued : hold.Queued half) {due since : Nat} {rest : List Nat}
    (tasks : hold.tasks = due :: rest) (held : hold.heldSince = some since)
    (early : due < since + half) : ¬ hold.runNext.Honest half := by
  rintro ⟨real, _⟩
  have now := (queued.due due (by simp [tasks])).1
  have next : hold.runNext = ({ hold with tasks := rest, clock := due } : Hold).longPress := by
    unfold Hold.runNext
    rw [tasks]
  rw [next] at real
  rcases longPress_cases { hold with tasks := rest, clock := due } with
    ⟨_, _, opened⟩ | ⟨spent, _⟩
  · rw [opened] at real
    obtain ⟨start, isStart, long⟩ := real ⟨due, hold.current, hold.heldSince⟩ (by simp [current])
    rw [held] at isStart
    cases isStart
    exact absurd long (Nat.not_le_of_lt early)
  · have down : hold.homeDownTs.isSome = true := by
      rw [counted.same, held]
      rfl
    have long := genuine.spent (spent down) since held
    omega

/-- Counted and genuine, the dialogs and navigations are honest. -/
theorem Counted.honest (counted : hold.Counted) (genuine : hold.Genuine half) :
    hold.Honest half := by
  refine ⟨genuine.real, ?_, fun press _ ended => (counted.ended press ended).2⟩
  intro press less
  by_cases down : hold.heldSince.isSome = true
  · rcases counted.released_or_current down less with ⟨_, ended⟩ | rfl
    · exact (counted.ended press ended).1
    · rw [(counted.held down).2.1]
      exact Bool.toNat_le _
  · have up : hold.heldSince = none := Option.not_isSome_iff_eq_none.mp down
    exact (counted.ended press (.inr ⟨less, up⟩)).1

end Hold

/-- Each press opens the dialog once or returns Home, and every dialog answers a hold of half a
second, along exactly those runs on which no function falls due in the first half second of a
later press. -/
theorem home_holds_real (half : Nat) (moments : List HomeMoment)
    (legal : (homeMachine half).StepsMeet Hold.Legal (homeMachine half).initial moments) :
    (homeMachine half).Always (Hold.Honest half) (homeMachine half).initial moments ↔
      (homeMachine half).StepsMeet (Hold.OwnFunction half) (homeMachine half).initial
        moments := by
  refine Machine.always_iff_stepsMeet
    (fun hold => hold.Counted ∧ hold.Queued half ∧ hold.Genuine half) ?_ ?_ ?_ ?_ legal
  · rintro hold ⟨counted, _, genuine⟩
    exact counted.honest genuine
  · rintro hold moment ⟨counted, queued, genuine⟩ legal own
    exact ⟨counted.advance legal, queued.advance legal, genuine.advance counted queued own⟩
  · rintro hold moment ⟨counted, queued, genuine⟩ _ foreign
    unfold Hold.OwnFunction at foreign
    simp only [not_forall, Nat.not_le] at foreign
    obtain ⟨rfl, due, isDue, since, isSince, early⟩ := foreign
    obtain ⟨rest, tasks⟩ := List.head?_eq_some_iff.mp isDue
    exact genuine.broken counted queued tasks isSince early
  · refine ⟨.start, ⟨?_, List.Pairwise.nil⟩, ⟨?_, ?_⟩⟩
    · exact fun due member => absurd member List.not_mem_nil
    · exact fun dialog member => absurd member List.not_mem_nil
    · exact fun fired => absurd fired Bool.false_ne_true

/-- A tap, and two seconds later a hold. -/
theorem home_holds_real_tap_then_hold :
    (homeMachine 500).StepsMeet Hold.Legal (homeMachine 500).initial
        [.press 0, .release 100, .scheduled, .press 2000, .scheduled, .release 2600] ∧
      (homeMachine 500).Always (Hold.Honest 500) (homeMachine 500).initial
        [.press 0, .release 100, .scheduled, .press 2000, .scheduled, .release 2600] :=
  ⟨by decide, (home_holds_real 500 _ (by decide)).mpr (by decide)⟩

/-- A tap, and 300 ms after its press a second press: the function of the tap runs 200 ms into
it and opens the dialog. -/
theorem dialog_of_short_hold :
    (homeMachine 500).StepsMeet Hold.Legal (homeMachine 500).initial
        [.press 0, .release 100, .press 300, .scheduled] ∧
      ¬ (homeMachine 500).Always (Hold.Honest 500) (homeMachine 500).initial
        [.press 0, .release 100, .press 300, .scheduled] := by
  decide

end Nookobo.Koreader
