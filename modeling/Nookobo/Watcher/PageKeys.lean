import Nookobo.Semantics.Alternation
import Nookobo.Watcher.Session

/-!
# The virtual page keys

A page key is forwarded or kept by the watcher, once for its press and once
for its release. The press is kept when Home is held or media mode is on, the
release when a chord has been consumed or media mode is on. `pageKeys_exact`
says that the virtual keys are balanced along exactly those schedules on which
the two decisions agree for every press.
-/

namespace Nookobo.Watcher

open Nookobo.Semantics

/-- Each virtual page key alternates 1, 0, 1, 0, ... and is not left at 1 when
the physical key is up. -/
def Session.PageKeysOk (session : Session) : Prop :=
  ∀ code ∈ [191, 192, 193, 194],
    Alternates 1 0 (keyStream code session.log) ∧
      (session.held code = false → (keyStream code session.log).getLast? ≠ some 1)

instance (session : Session) : Decidable session.PageKeysOk :=
  inferInstanceAs (Decidable (∀ code ∈ [191, 192, 193, 194], _))

/-- The release of a page key is kept exactly when its press was. -/
def Session.SameVerdict (session : Session) (arrival : Arrival) : Prop :=
  arrival.event.type = evKey → isPageKey arrival.event.code = true →
    arrival.event.value = 0 →
      (session.state.homeComboConsumed || session.state.mediaMode) =
        session.claimed arrival.event.code

instance (session : Session) (arrival : Arrival) : Decidable (session.SameVerdict arrival) :=
  inferInstanceAs (Decidable (_ → _))

namespace HomeView

/-- The watcher passes a page event on to the virtual device. -/
def forwards (view : HomeView) (event : InputEvent) : Bool :=
  event.value == 1 && !view.down && !view.media ||
    event.value == 0 && !(view.combo || view.media)

/-- Home is no page key. -/
theorem home_ne_page {code : Nat} (page : isPageKey code = true) : keyHome ≠ code := by
  rintro rfl
  exact absurd page (by decide)

/-- The loop top writes no page key. -/
theorem sweep_pageStream (view : HomeView) (now : UInt64) {code : Nat}
    (page : isPageKey code = true) : keyStream code (view.sweep now).2 = [] := by
  have notHome := home_ne_page page
  have long : keyStream code (view.sweepLong now).2 = [] := by
    unfold sweepLong
    split <;> simp [notHome]
  have single : ∀ view : HomeView, keyStream code (view.sweepSingle now).2 = [] := by
    intro view
    unfold sweepSingle
    split <;> simp [notHome]
  unfold sweep
  rw [keyStream_append, long, single, List.append_nil]

/-- Home up writes no page key. -/
theorem homeUp_pageStream (view : HomeView) (now : UInt64) {code : Nat}
    (page : isPageKey code = true) : keyStream code (view.homeUp now).2 = [] := by
  have notHome := home_ne_page page
  unfold homeUp
  repeat' split
  all_goals simp [notHome, pauseCommand]

/-- A page event writes its own key when it is forwarded, and no page key
otherwise. -/
theorem page_pageStream (view : HomeView) (arrival : Arrival) {code : Nat}
    (key : arrival.event.type = evKey) (pageEvent : isPageKey arrival.event.code = true)
    (watched : isPageKey code = true) :
    keyStream code (view.page arrival).2 =
      if view.forwards arrival.event ∧ arrival.event.code = code
      then [arrival.event.value] else [] := by
  have notHome := home_ne_page watched
  have forwarded : keyStream code [.emit arrival.event] =
      if arrival.event.code = code then [arrival.event.value] else [] := by
    by_cases same : arrival.event.code = code
    · simp [Effect.keyValue, key, same]
    · simp [Effect.keyValue, same]
  unfold page forwards
  by_cases pressed : arrival.event.value = 1
  · cases down : view.down with
    | true =>
        have chorded := chord_keyStream arrival view code pageEvent
        simp only [notHome.symm, and_false, if_false] at chorded
        simp [pressed, chorded]
    | false =>
        cases media : view.media with
        | true =>
            have kept : keyStream code (mediaEffects arrival.event.code) = [] := by
              unfold mediaEffects
              repeat' split
              all_goals rfl
            simp [pressed, kept]
        | false => simp [pressed, forwarded]
  · by_cases released : arrival.event.value = 0
    · cases kept : view.combo || view.media with
      | true => simp [released]
      | false => simp [released, forwarded]
    · simp [pressed, released]

end HomeView

namespace Session

/-- The stream of a page key is at the level its press left it. -/
structure PageInStep (session : Session) (code : Nat) : Prop where
  alternates : Alternates 1 0 (keyStream code session.log)
  level : expected 1 0 (keyStream code session.log) =
    if session.held code && !session.claimed code then 0 else 1

/-- In step, the stream of a page key is well formed. -/
theorem PageInStep.ok {session : Session} {code : Nat} (inStep : session.PageInStep code) :
    Alternates 1 0 (keyStream code session.log) ∧
      (session.held code = false → (keyStream code session.log).getLast? ≠ some 1) := by
  refine ⟨inStep.alternates, fun up last => ?_⟩
  rw [getLast?_eq_some_first_iff (by decide) inStep.alternates, inStep.level, up] at last
  exact absurd last (by simp)

/-- The loop top keeps a page key in step. -/
theorem PageInStep.swept {session : Session} {code : Nat} (inStep : session.PageInStep code)
    (page : isPageKey code = true) (now : UInt64) : (session.swept now).PageInStep code := by
  have notPower : code ≠ keyPower := by
    rintro rfl
    exact absurd page (by decide)
  have same : keyStream code (session.swept now).log = keyStream code session.log := by
    rw [swept_keyStream notPower, HomeView.sweep_pageStream _ now page, List.append_nil]
  exact ⟨by rw [same]; exact inStep.alternates, by rw [same]; exact inStep.level⟩

/-- An event of another key claims nothing for this one. -/
theorem deliver_claimed_of_other {session : Session} {arrival : Arrival} {code : Nat}
    (other : ¬ (arrival.event.type = evKey ∧ arrival.event.code = code)) :
    (session.deliver arrival).claimed code = session.claimed code := by
  cases press : isPagePress arrival.event with
  | false => simp [deliver, press]
  | true =>
      have key : arrival.event.type = evKey := by
        simp only [isPagePress, Bool.and_eq_true, beq_iff_eq] at press
        exact press.1.1
      simp only [deliver, press, if_true]
      exact Function.update_of_ne (fun same => other ⟨key, same.symm⟩) _ _

/-- An event of another key leaves the stream of `code` alone. -/
theorem PageInStep.other {session : Session} {arrival : Arrival} {code : Nat}
    (inStep : session.PageInStep code) (legal : session.Legal arrival)
    (page : isPageKey code = true)
    (other : ¬ (arrival.event.type = evKey ∧ arrival.event.code = code)) :
    (session.deliver arrival).PageInStep code := by
  have notPower : code ≠ keyPower := by
    rintro rfl
    exact absurd page (by decide)
  have quiet : keyStream code (session.state.homeView.handle arrival).2 = [] := by
    by_cases home : arrival.event.type = evKey ∧ arrival.event.code = keyHome
    · rcases home_cases legal home with ⟨_, _, _, handled⟩ | ⟨_, _, _, handled⟩
      · rw [handled]
        exact HomeView.homeDown_keyStream arrival.now _ code
      · rw [handled]
        exact HomeView.homeUp_pageStream _ arrival.now page
    · by_cases pageEvent : arrival.event.type = evKey ∧ isPageKey arrival.event.code = true
      · rw [handle_page pageEvent,
          HomeView.page_pageStream _ arrival pageEvent.1 pageEvent.2 page]
        exact if_neg fun forwarded => other ⟨pageEvent.1, forwarded.2⟩
      · rw [handle_other home pageEvent]
        exact other_keyStream (.inr page) home pageEvent
  have same : keyStream code (session.deliver arrival).log = keyStream code session.log := by
    rw [deliver_keyStream notPower, quiet, List.append_nil]
  refine ⟨by rw [same]; exact inStep.alternates, ?_⟩
  rw [same, deliver_held_of_not_key other, deliver_claimed_of_other other]
  exact inStep.level

/-- What an event of the key itself writes. -/
theorem deliver_pageStream {session : Session} {arrival : Arrival}
    (key : arrival.event.type = evKey) (page : isPageKey arrival.event.code = true) :
    keyStream arrival.event.code (session.deliver arrival).log =
      keyStream arrival.event.code session.log ++
        if session.state.homeView.forwards arrival.event then [arrival.event.value] else [] := by
  have notPower : arrival.event.code ≠ keyPower := by
    intro power
    rw [power] at page
    exact absurd page (by decide)
  rw [deliver_keyStream notPower, handle_page ⟨key, page⟩,
    HomeView.page_pageStream _ arrival key page page]
  simp

/-- A press records the verdict on it: forwarded exactly when it is unclaimed. -/
theorem PageInStep.press {session : Session} {arrival : Arrival}
    (inStep : session.PageInStep arrival.event.code) (key : arrival.event.type = evKey)
    (page : isPageKey arrival.event.code = true) (value : arrival.event.value = 1)
    (up : session.held arrival.event.code = false) :
    (session.deliver arrival).PageInStep arrival.event.code := by
  have held : (session.deliver arrival).held arrival.event.code = true := by
    rw [deliver_held_of_key session key, Function.update_self, value]
    rfl
  have claimed : (session.deliver arrival).claimed arrival.event.code =
      (session.state.homeDown || session.state.mediaMode) := by
    have press : isPagePress arrival.event = true := by simp [isPagePress, key, page, value]
    simp [deliver, press]
  have forwards : session.state.homeView.forwards arrival.event =
      !(session.state.homeDown || session.state.mediaMode) := by
    simp [HomeView.forwards, value]
  have level := inStep.level
  rw [up] at level
  simp only [Bool.false_and, Bool.false_eq_true, if_false] at level
  constructor
  · rw [deliver_pageStream key page, forwards, alternates_append, level, value]
    refine ⟨inStep.alternates, ?_⟩
    split <;> simp
  · rw [deliver_pageStream key page, forwards, held, claimed, expected_append, level, value]
    cases session.state.homeDown || session.state.mediaMode with
    | true => rfl
    | false =>
        rcases expected_eq_or (1 : Int) 0 (keyStream arrival.event.code session.log) with
          ⟨_, mirror⟩ | ⟨same, _⟩
        · simp [mirror]
        · rw [level] at same
          exact absurd same (by decide)

/-- The value expected after a release has been decided on. -/
theorem PageInStep.release_level {session : Session} {arrival : Arrival}
    (inStep : session.PageInStep arrival.event.code)
    (down : session.held arrival.event.code = true) :
    expected 1 0 (keyStream arrival.event.code session.log) =
      if session.claimed arrival.event.code then 1 else 0 := by
  rw [inStep.level, down]
  cases session.claimed arrival.event.code <;> rfl

/-- A release that is judged like its press keeps the page key in step. -/
theorem PageInStep.release {session : Session} {arrival : Arrival}
    (inStep : session.PageInStep arrival.event.code) (key : arrival.event.type = evKey)
    (page : isPageKey arrival.event.code = true) (value : arrival.event.value = 0)
    (down : session.held arrival.event.code = true) (verdict : session.SameVerdict arrival) :
    (session.deliver arrival).PageInStep arrival.event.code := by
  have held : (session.deliver arrival).held arrival.event.code = false := by
    rw [deliver_held_of_key session key, Function.update_self, value]
    rfl
  have forwards : session.state.homeView.forwards arrival.event =
      !session.claimed arrival.event.code := by
    rw [← verdict key page value]
    simp [HomeView.forwards, value]
  have level := inStep.release_level down
  constructor
  · rw [deliver_pageStream key page, forwards, alternates_append, level, value]
    refine ⟨inStep.alternates, ?_⟩
    cases session.claimed arrival.event.code <;> simp
  · rw [deliver_pageStream key page, forwards, held, expected_append, level, value]
    cases claimed : session.claimed arrival.event.code with
    | true => rfl
    | false =>
        simp only [claimed, Bool.false_eq_true, if_false] at level
        rcases expected_eq_or (1 : Int) 0 (keyStream arrival.event.code session.log) with
          ⟨same, _⟩ | ⟨_, mirror⟩
        · rw [level] at same
          exact absurd same (by decide)
        · simp [mirror]

/-- An event keeps a page key in step, when its release is judged like its press. -/
theorem PageInStep.deliver {session : Session} {arrival : Arrival} {code : Nat}
    (inStep : session.PageInStep code) (page : isPageKey code = true)
    (legal : session.Legal arrival) (verdict : session.SameVerdict arrival) :
    (session.deliver arrival).PageInStep code := by
  by_cases own : arrival.event.type = evKey ∧ arrival.event.code = code
  · obtain ⟨key, rfl⟩ := own
    rcases legal key with ⟨value, up⟩ | ⟨value, down⟩
    · exact inStep.press key page value up
    · exact inStep.release key page value down verdict
  · exact inStep.other legal page own

/-- A release decided otherwise than its press shows in the stream at once: a
release without a press, or a key left down. -/
theorem PageInStep.broken {session : Session} {arrival : Arrival}
    (inStep : session.PageInStep arrival.event.code) (key : arrival.event.type = evKey)
    (page : isPageKey arrival.event.code = true) (value : arrival.event.value = 0)
    (down : session.held arrival.event.code = true)
    (verdict : (session.state.homeComboConsumed || session.state.mediaMode) ≠
      session.claimed arrival.event.code) :
    ¬ (Alternates 1 0 (keyStream arrival.event.code (session.deliver arrival).log) ∧
      ((session.deliver arrival).held arrival.event.code = false →
        (keyStream arrival.event.code (session.deliver arrival).log).getLast? ≠ some 1)) := by
  rintro ⟨alternates, released⟩
  have held : (session.deliver arrival).held arrival.event.code = false := by
    rw [deliver_held_of_key session key, Function.update_self, value]
    rfl
  have forwards : session.state.homeView.forwards arrival.event =
      !(session.state.homeComboConsumed || session.state.mediaMode) := by
    simp [HomeView.forwards, value]
  have level := inStep.release_level down
  rw [deliver_pageStream key page, forwards, value] at alternates released
  cases kept : session.state.homeComboConsumed || session.state.mediaMode with
  | true =>
      have unclaimed : session.claimed arrival.event.code = false := by
        cases claimed : session.claimed arrival.event.code with
        | false => rfl
        | true => exact absurd (kept.trans claimed.symm) verdict
      simp only [unclaimed, Bool.false_eq_true, if_false] at level
      simp only [kept, Bool.not_true, Bool.false_eq_true, if_false, List.append_nil]
        at alternates released
      exact released held ((getLast?_eq_some_first_iff (by decide) alternates).mpr level)
  | false =>
      have claimed : session.claimed arrival.event.code = true := by
        cases claimed : session.claimed arrival.event.code with
        | true => rfl
        | false => exact absurd (kept.trans claimed.symm) verdict
      simp only [claimed, if_true] at level
      simp only [kept, Bool.not_false, if_true, alternates_append, level, alternates_cons]
        at alternates
      exact absurd alternates.2.1 (by decide)

end Session

/-- The virtual page keys are balanced along exactly those schedules on which
every page key is released under the same verdict it was pressed under. -/
theorem pageKeys_exact (inputs : List Pass)
    (physical : machine.StepsMeet Session.Physical machine.initial inputs) :
    machine.Always Session.PageKeysOk machine.initial inputs ↔
      machine.StepsMeet (Session.OnArrival Session.SameVerdict) machine.initial inputs := by
  refine Session.always_iff_onArrival
    (fun session => ∀ code, isPageKey code = true → session.PageInStep code)
    ?_ ?_ ?_ ?_ ?_ physical
  · intro session inStep code member
    have page : isPageKey code = true := by
      simp only [List.mem_cons, List.not_mem_nil, or_false] at member
      rcases member with rfl | rfl | rfl | rfl <;> rfl
    exact (inStep code page).ok
  · intro session now inStep code page
    exact (inStep code page).swept page now
  · intro session arrival inStep legal verdict code page
    exact (inStep code page).deliver page legal verdict
  · intro session arrival inStep legal missed ok
    unfold Session.SameVerdict at missed
    simp only [not_forall] at missed
    obtain ⟨key, page, value, verdict⟩ := missed
    have member : arrival.event.code ∈ [191, 192, 193, 194] := by
      rcases pageKey_cases page with code | code | code | code <;> simp [code]
    rcases legal key with ⟨press, _⟩ | ⟨_, down⟩
    · rw [value] at press
      exact absurd press (by decide)
    · exact (inStep _ page).broken key page value down verdict (ok _ member)
  · intro code _
    exact ⟨trivial, rfl⟩

/-- A page turn outside any chord, and a chord whose page key is released
before Home: both balanced. -/
theorem pageKeys_exact_turn_and_chord :
    machine.StepsMeet (Session.OnArrival Session.SameVerdict) machine.initial
        [.key 1000 193 1 .koreader, .key 1050 193 0 .koreader,
          .key 2000 keyHome 1 .koreader, .key 2100 192 1 .koreader,
          .key 2150 192 0 .plato, .key 2200 keyHome 0 .plato] ∧
      machine.Always Session.PageKeysOk machine.initial
        [.key 1000 193 1 .koreader, .key 1050 193 0 .koreader,
          .key 2000 keyHome 1 .koreader, .key 2100 192 1 .koreader,
          .key 2150 192 0 .plato, .key 2200 keyHome 0 .plato] :=
  ⟨by decide, (pageKeys_exact _ (by decide)).mpr (by decide)⟩

/-- Home + Bottom Left with Home released first: the reader sees the release of
a page key it never saw pressed. -/
theorem pageKeys_release_without_press :
    machine.StepsMeet Session.Physical machine.initial
        [.key 1000 keyHome 1 .koreader, .key 1100 192 1 .koreader,
          .key 1200 keyHome 0 .plato, .key 1250 192 0 .plato] ∧
      (readings [.key 1000 keyHome 1 .koreader, .key 1100 192 1 .koreader,
          .key 1200 keyHome 0 .plato, .key 1250 192 0 .plato]).Pairwise (· ≤ ·) ∧
      ¬ machine.Always Session.PageKeysOk machine.initial
        [.key 1000 keyHome 1 .koreader, .key 1100 192 1 .koreader,
          .key 1200 keyHome 0 .plato, .key 1250 192 0 .plato] := by
  decide

end Nookobo.Watcher
