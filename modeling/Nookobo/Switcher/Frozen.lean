import Nookobo.Switcher.Model

/-!
# The app switcher: what it leaves stopped

The processes of the active application are stopped as the switcher starts. Every exit
continues them, kills them or kills all but those of the application it switches to. The
last kind is where one is forgotten: when NetSurf is the active application and is
chosen again, nobody touches its process any more.
-/

namespace Nookobo.Switcher

open Nookobo.Semantics Nookobo.Text Nookobo.Shim

/-- Every process that was stopped has been continued or killed afterwards. -/
def NoneFrozen (commands : List Command) : Prop :=
  ∀ before process after, commands = before ++ .killall .stop process :: after →
    .killall .cont process ∈ after ∨ .killall .kill process ∈ after

/-- The command sends a signal to processes. -/
def Command.isKillall : Command → Bool
  | .killall _ _ => true
  | _ => false

namespace State

/-! ## Control -/

/-- What the flow of control depends on, and the commands. -/
structure Control where
  activeApp : List UInt8
  chosen : Option ButtonId
  running : Bool
  position : Position
  commands : List Command

/-- The part of the state that the flow of control depends on. -/
def control (state : State) : Control where
  activeApp := state.activeApp
  chosen := state.chosen
  running := state.running
  position := state.position
  commands := state.commands

/-- The button a record selects, if it is the report of a release. -/
def selects (state : State) (event : InputEvent) : Option ButtonId :=
  if event.type = 0 ∧ event.code = 0 ∧ state.wasContactDown = true ∧
      state.isContactDown = false ∧ state.located = true then
    if outsideDialog state.screenX state.screenY then some .close else state.target
  else none

variable (font : Font)

/-- A press does not touch the control. -/
theorem control_handlePress (state : State) : (state.handlePress font).control = state.control := by
  simp only [handlePress]
  split
  · split <;> rfl
  · rfl

/-- Taking the highlight away does not touch the control. -/
theorem control_unhighlight (state : State) :
    (state.unhighlight font).control = state.control := by
  unfold unhighlight
  split <;> rfl

/-- The control after a choice. -/
def Control.choose (id : ButtonId) (control : Control) : Control :=
  { control with chosen := some id, running := false, position := .loopHead }

/-- `after` has run some commands that concern no process and may have left the loop
over the records. -/
def Control.Harmless (before after : Control) : Prop :=
  ∃ more position, (∀ command ∈ more, command.isKillall = false) ∧
    (position = before.position ∨ position = .loopHead) ∧
    after = { before with commands := before.commands ++ more, position := position }

/-- Doing nothing is harmless. -/
theorem Control.Harmless.refl (control : Control) : control.Harmless control :=
  ⟨[], control.position, by simp, .inl rfl, by rw [List.append_nil]⟩

/-- The `switch` chooses an action, or does something that concerns no process. -/
theorem control_act (report : List (List UInt8)) (id : ButtonId) (state : State) :
    (state.act font report id).control =
        { state.control with chosen := some id, running := false } ∨
      id ≠ .netsurf ∧ ∃ command, command.isKillall = false ∧
        (state.act font report id).control =
          { state.control with commands := state.commands ++ [command] } := by
  cases id with
  | koreader => exact .inl rfl
  | plato => exact .inl rfl
  | netsurf => exact .inl rfl
  | close => exact .inl rfl
  | musicPrev => exact .inr ⟨by decide, .audioPrev, rfl, rfl⟩
  | musicPlay => exact .inr ⟨by decide, .audioPause, rfl, rfl⟩
  | musicNext => exact .inr ⟨by decide, .audioNext, rfl, rfl⟩
  | musicShuffle => exact .inr ⟨by decide, .audioShuffle, rfl, rfl⟩
  | frontlight => exact .inr ⟨by decide, .toggleFrontlight, rfl, rfl⟩

/-- The end of a release: the inner loop is left when the program is to end. -/
theorem control_released (acted : State) :
    acted.released.control =
      if acted.running then acted.control else { acted.control with position := .loopHead } := by
  unfold released
  split <;> rfl

/-- A release does what it selects. -/
theorem control_handleRelease (report : List (List UInt8)) (state : State)
    (located : state.located = true) :
    (outsideDialog state.screenX state.screenY = true ∧
        (state.handleRelease font report).control = state.control.choose .close) ∨
      outsideDialog state.screenX state.screenY = false ∧
        ((∃ id, state.target = some id ∧
            (state.handleRelease font report).control = state.control.choose id) ∨
          state.target ≠ some .netsurf ∧
            state.control.Harmless (state.handleRelease font report).control) := by
  have drawn : ({ state with wasContactDown := false }.unhighlight font).control =
      state.control := control_unhighlight font { state with wasContactDown := false }
  generalize shows : { state with wasContactDown := false }.unhighlight font = shown at drawn
  rw [handleRelease_of_located font located report shows]
  cases outside : outsideDialog state.screenX state.screenY with
  | true =>
      refine .inl ⟨rfl, ?_⟩
      change { shown.control with
        chosen := some .close, running := false, position := .loopHead } = _
      rw [drawn]
      rfl
  | false =>
      refine .inr ⟨rfl, ?_⟩
      rw [if_neg Bool.false_ne_true, control_released]
      cases selected : state.target with
      | none =>
          refine .inr ⟨by simp, ?_⟩
          simp only [drawn]
          split
          · exact .refl _
          · exact ⟨[], .loopHead, by simp, .inr rfl, by rw [List.append_nil]⟩
      | some id =>
          simp only
          rcases control_act font report id shown with chosen | ⟨other, command, harmless, run⟩
          · refine .inl ⟨id, rfl, ?_⟩
            have stopped : (shown.act font report id).running = false :=
              congrArg Control.running chosen
            rw [stopped, if_neg Bool.false_ne_true, chosen, drawn]
            rfl
          · refine .inr ⟨by simpa using other, ?_⟩
            have same : shown.commands = state.commands := congrArg Control.commands drawn
            rw [run, drawn, same]
            split
            · exact ⟨[command], _, by simpa using harmless, .inl rfl, rfl⟩
            · exact ⟨[command], .loopHead, by simpa using harmless, .inr rfl, rfl⟩

/-- What a record does to the control: the choice it makes, or nothing that matters to a
process. -/
theorem control_handleEvent (event : InputEvent) (report : List (List UInt8)) (state : State) :
    (∃ id, state.selects event = some id ∧
        (state.handleEvent font event report).control = state.control.choose id) ∨
      state.selects event ≠ some .netsurf ∧
        state.control.Harmless (state.handleEvent font event report).control := by
  have quiet (same : (state.handleEvent font event report).control = state.control)
      (unselected : state.selects event = none) :
      state.selects event ≠ some .netsurf ∧
        state.control.Harmless (state.handleEvent font event report).control := by
    rw [same, unselected]
    exact ⟨by simp, .refl _⟩
  by_cases reports : event.type = 0 ∧ event.code = 0
  · have frames := handleEvent_of_report font reports report state
    by_cases lifts : state.wasContactDown = true ∧ state.isContactDown = false
    · have releases : state.handleEvent font event report = state.handleRelease font report := by
        rw [frames]
        simp [handleFrame, lifts.1, lifts.2]
      cases located : state.located with
      | false =>
          refine .inr (quiet ?_ (by simp [selects, located]))
          rw [releases, handleRelease_of_nowhere font located report]
          rfl
      | true =>
          have selection : state.selects event =
              if outsideDialog state.screenX state.screenY then some .close else state.target :=
            if_pos ⟨reports.1, reports.2, lifts.1, lifts.2, located⟩
          rw [releases, selection]
          rcases control_handleRelease font report state located with
            ⟨outside, choice⟩ | ⟨inside, choice | harmless⟩
          · rw [outside]
            exact .inl ⟨.close, rfl, choice⟩
          · rw [inside]
            exact .inl choice
          · rw [inside]
            exact .inr harmless
    · refine .inr (quiet ?_ ?_)
      · rw [frames]
        simp only [handleFrame]
        split
        · exact control_handlePress font state
        · rw [if_neg]
          simpa using lifts
      · simp only [selects]
        rw [if_neg]
        rintro ⟨_, _, down, up, _⟩
        exact lifts ⟨down, up⟩
  · refine .inr (quiet ?_ ?_)
    · simp only [handleEvent, if_neg reports]
      split_ifs <;> rfl
    · simp only [selects]
      rw [if_neg]
      rintro ⟨type, code, _⟩
      exact reports ⟨type, code⟩

/-! ## Exits -/

/-- The commands of the branch for a chosen action. -/
def exitCommands (activeApp : List UInt8) (chosen : Option ButtonId) : List Command :=
  match chosen with
  | some .koreader =>
      if activeApp = App.koreader.name then resumeActiveApp activeApp
      else [.killall .kill .ld219, .killall .kill .plato, .killall .kill .netsurfFb]
  | some .plato =>
      if activeApp = App.plato.name then resumeActiveApp activeApp
      else [.killall .kill .luajit, .killall .kill .netsurfFb]
  | some .netsurf =>
      [.killall .kill .ld219, .killall .kill .plato, .killall .kill .luajit, .startBrowser]
  | _ => resumeActiveApp activeApp

/-- Resuming the active application runs the commands for it. -/
theorem control_resume (state : State) :
    state.resume.control =
      { state.control with commands := state.commands ++ resumeActiveApp state.activeApp } := by
  unfold resume restore
  split <;> rfl

/-- A branch that resumes runs the commands for the active application. -/
theorem exitCommands_of_resumes {state : State} (resumes : state.resumes = true) :
    exitCommands state.activeApp state.chosen = resumeActiveApp state.activeApp := by
  unfold State.resumes at resumes
  unfold exitCommands
  split at resumes <;> simp_all

/-- An exit runs the commands of its branch. -/
theorem control_finish (state : State) :
    state.finish.control =
      { state.control with
        position := .done
        commands := state.commands ++ exitCommands state.activeApp state.chosen } := by
  simp only [finish]
  split
  · next resumes =>
      rw [control_resume, ← exitCommands_of_resumes resumes]
      rfl
  · next leaves =>
      have switches : State.resumes { state with position := .done } = state.resumes := rfl
      rw [switches] at leaves
      unfold State.resumes at leaves
      split
      · next chosen =>
          have other : state.activeApp ≠ App.koreader.name := by simpa [chosen] using leaves
          have commands : exitCommands state.activeApp state.chosen =
              [.killall .kill .ld219, .killall .kill .plato, .killall .kill .netsurfFb] := by
            simp [exitCommands, chosen, other]
          rw [commands]
          rfl
      · next chosen =>
          have other : state.activeApp ≠ App.plato.name := by simpa [chosen] using leaves
          have commands : exitCommands state.activeApp state.chosen =
              [.killall .kill .luajit, .killall .kill .netsurfFb] := by
            simp [exitCommands, chosen, other]
          rw [commands]
          rfl
      · next notKoreader notPlato =>
          have chosen : state.chosen = some .netsurf := by
            rcases picked : state.chosen with _ | id
            · simp [picked] at leaves
            · cases id <;> simp_all
          have commands : exitCommands state.activeApp state.chosen =
              [.killall .kill .ld219, .killall .kill .plato, .killall .kill .luajit,
                .startBrowser] := by
            simp [exitCommands, chosen]
          rw [commands]
          rfl

/-- The control that an exit finds and leaves: the processes of the active application
were stopped first, nothing since has concerned a process, and an exit ran its
commands. -/
structure Sound (control : Control) : Prop where
  settled : control.chosen ≠ none → control.running = false ∧
    (control.position = .loopHead ∨ control.position = .done)
  commands_eq : ∃ others, (∀ command ∈ others, command.isKillall = false) ∧
    control.commands = suspendActiveApp control.activeApp ++ others ++
      if control.position = .done then exitCommands control.activeApp control.chosen else []

/-- The start stops the processes of the active application. -/
theorem sound_start (found : Surroundings) : Sound (start font found).control := by
  simp only [start]
  split
  · refine ⟨fun chosen => absurd rfl chosen, [], by simp, ?_⟩
    simp [control, system, exitCommands]
  · refine ⟨fun chosen => absurd rfl chosen, [], by simp, ?_⟩
    simp [control, draw]

/-- Nothing has been chosen while the loop goes on. -/
theorem Sound.unchosen {control : Control} (sound : Sound control)
    (busy : control.position = .selecting ∨ control.position = .reading ∨
      control.running = true) : control.chosen = none := by
  by_contra chosen
  obtain ⟨stopped, place⟩ := sound.settled chosen
  rcases busy with busy | busy | busy
  · rcases place with place | place <;> rw [place] at busy <;> cases busy
  · rcases place with place | place <;> rw [place] at busy <;> cases busy
  · rw [stopped] at busy
    cases busy

/-- A step from one place of the loop to another. -/
theorem Sound.move {control : Control} (sound : Sound control) (open_ : control.position ≠ .done)
    (unchosen : control.chosen = none) {position : Position} (inside : position ≠ .done) :
    Sound { control with position := position } := by
  obtain ⟨others, harmless, shape⟩ := sound.commands_eq
  refine ⟨fun chosen => absurd unchosen chosen, others, harmless, ?_⟩
  rw [if_neg open_] at shape
  rw [if_neg inside]
  exact shape

/-- An exit from a sound state runs the commands of its branch. -/
theorem Sound.finish {state : State} (sound : Sound state.control)
    (open_ : state.position ≠ .done) : Sound state.finish.control := by
  obtain ⟨others, harmless, shape⟩ := sound.commands_eq
  have before : ¬ state.control.position = .done := open_
  rw [if_neg before, List.append_nil] at shape
  rw [control_finish]
  refine ⟨fun chosen => ⟨(sound.settled chosen).1, .inr rfl⟩, others, harmless, ?_⟩
  simp only [if_true]
  exact congrArg (· ++ exitCommands state.activeApp state.chosen) shape

/-- A choice keeps the control sound. -/
theorem Sound.choose {control : Control} (sound : Sound control)
    (reading : control.position = .reading) (id : ButtonId) : Sound (control.choose id) := by
  obtain ⟨others, harmless, shape⟩ := sound.commands_eq
  refine ⟨fun _ => ⟨rfl, .inl rfl⟩, others, harmless, ?_⟩
  rw [reading] at shape
  exact shape

/-- What concerns no process keeps the control sound. -/
theorem Sound.harmless {before after : Control} (sound : Sound before)
    (reading : before.position = .reading) (harmless : before.Harmless after) : Sound after := by
  obtain ⟨more, position, added, place, rfl⟩ := harmless
  obtain ⟨others, earlier, shape⟩ := sound.commands_eq
  have inside : position ≠ .done := by
    rcases place with rfl | rfl
    · rw [reading]
      decide
    · decide
  refine ⟨fun chosen => absurd (sound.unchosen (.inr (.inl reading))) chosen,
    others ++ more, ?_, ?_⟩
  · intro command member
    rcases List.mem_append.mp member with old | new
    · exact earlier command old
    · exact added command new
  · rw [reading, if_neg (by decide), List.append_nil] at shape
    simp only [inside, if_false, List.append_nil]
    rw [shape, List.append_assoc]

/-- A signal keeps the control sound. -/
theorem Sound.signal {state : State} (sound : Sound state.control) :
    Sound { state with running := false }.control :=
  ⟨fun chosen => ⟨rfl, (sound.settled chosen).2⟩, sound.commands_eq⟩

/-- Every step keeps the control sound. -/
theorem sound_step {state : State} (sound : Sound state.control) (label : Label) :
    Sound (state.step font label).control := by
  have stepped := state.step_cases font label
  generalize state.step font label = after at stepped ⊢
  cases stepped with
  | idle => exact sound
  | move position open_ inside busy => exact sound.move open_ (sound.unchosen busy) inside
  | signal open_ => exact sound.signal
  | finish open_ => exact sound.finish open_
  | record event report label_eq reading =>
      rcases control_handleEvent font event report state with ⟨id, _, chosen⟩ | ⟨_, harmless⟩
      · rw [chosen]
        exact sound.choose reading id
      · exact sound.harmless reading harmless

/-! ## What an exit leaves stopped -/

/-- Where all stops come first, each stopped process has to be looked for in the rest. -/
theorem noneFrozen_iff {stopped : List Process} {rest : List Command}
    (noStop : ∀ process, .killall .stop process ∉ rest) :
    NoneFrozen (stopped.map (.killall .stop) ++ rest) ↔
      ∀ process ∈ stopped, .killall .cont process ∈ rest ∨ .killall .kill process ∈ rest := by
  constructor
  · intro released process member
    obtain ⟨earlier, later, rfl⟩ := List.append_of_mem member
    have found := released (earlier.map (.killall .stop)) process
      (later.map (.killall .stop) ++ rest) (by simp)
    simpa using found
  · intro released before process after split
    rcases List.append_eq_append_iff.mp split with ⟨between, _, inRest⟩ | ⟨between, stops, cut⟩
    · exact absurd (by rw [inRest]; simp) (noStop process)
    · cases between with
      | nil => exact absurd (by rw [← List.nil_append rest, ← cut]; simp) (noStop process)
      | cons first later =>
          obtain ⟨rfl, rfl⟩ := List.cons_eq_cons.mp cut
          have member : process ∈ stopped := by
            have inStops : .killall .stop process ∈ stopped.map (Command.killall .stop) := by
              rw [stops]
              simp
            simpa using inStops
          rcases released process member with continued | killed
          · exact .inl (List.mem_append_right _ continued)
          · exact .inr (List.mem_append_right _ killed)

/-- No exit stops a process. -/
theorem exitCommands_noStop (activeApp : List UInt8) (chosen : Option ButtonId)
    (process : Process) : .killall .stop process ∉ exitCommands activeApp chosen := by
  have resumes : .killall .stop process ∉ resumeActiveApp activeApp := by
    simp [resumeActiveApp]
  unfold exitCommands
  split <;> (try split) <;> simp_all

/-- The branch for NetSurf is the only one that can forget a process, and only NetSurf's
own. -/
theorem exitCommands_release_iff (activeApp : List UInt8) (chosen : Option ButtonId) :
    (∀ process ∈ processesOf activeApp,
        .killall .cont process ∈ exitCommands activeApp chosen ∨
          .killall .kill process ∈ exitCommands activeApp chosen) ↔
      ¬ (activeApp = App.netsurf.name ∧ chosen = some .netsurf) := by
  by_cases koreader : activeApp = App.koreader.name
  · subst koreader
    rcases chosen with _ | id
    · decide
    · cases id <;> decide
  by_cases plato : activeApp = App.plato.name
  · subst plato
    rcases chosen with _ | id
    · decide
    · cases id <;> decide
  by_cases netsurf : activeApp = App.netsurf.name
  · subst netsurf
    rcases chosen with _ | id
    · decide
    · cases id <;> decide
  · simp [processesOf, koreader, plato, netsurf]

/-- After an exit nothing is frozen, unless NetSurf was left for itself. -/
theorem Sound.noneFrozen_iff {control : Control} (sound : Sound control)
    (ended : control.position = .done) :
    NoneFrozen control.commands ↔
      ¬ (control.activeApp = App.netsurf.name ∧ control.chosen = some .netsurf) := by
  obtain ⟨others, harmless, shape⟩ := sound.commands_eq
  have only (signal : Signal) (process : Process) : .killall signal process ∉ others := by
    intro member
    cases harmless _ member
  rw [if_pos ended, List.append_assoc] at shape
  rw [shape, suspendActiveApp, State.noneFrozen_iff, ← exitCommands_release_iff]
  · simp only [List.mem_append, only, false_or]
  · intro process member
    rcases List.mem_append.mp member with early | late
    · exact only _ _ early
    · exact exitCommands_noStop _ _ _ late

/-! ## Runs -/

/-- The step does not choose NetSurf while NetSurf is the active application. -/
def LeavesNetsurf (state : State) (label : Label) : Prop :=
  ∀ event report, label = .read (some event) report → state.position = .reading →
    state.activeApp = App.netsurf.name → state.selects event ≠ some .netsurf

/-- The step chooses NetSurf. -/
def ChoosesNetsurf (state : State) (label : Label) : Prop :=
  ∃ event report, label = .read (some event) report ∧ state.position = .reading ∧
    state.selects event = some .netsurf

/-- A step leaves NetSurf alone when it is not active or not chosen. -/
theorem leavesNetsurf_iff (state : State) (label : Label) :
    state.LeavesNetsurf label ↔
      ¬ (state.activeApp = App.netsurf.name ∧ state.ChoosesNetsurf label) := by
  constructor
  · rintro leaves ⟨active, event, report, label_eq, reading, selected⟩
    exact leaves event report label_eq reading active selected
  · intro leaves event report label_eq reading active selected
    exact leaves ⟨active, event, report, label_eq, reading, selected⟩

/-- The active application stays what it was, and NetSurf is chosen by the step or was
chosen before. -/
theorem step_choice {state : State} (sound : Sound state.control) (label : Label) :
    (state.step font label).activeApp = state.activeApp ∧
      ((state.step font label).chosen = some .netsurf ↔
        state.chosen = some .netsurf ∨ state.ChoosesNetsurf label) := by
  by_cases chooses : state.ChoosesNetsurf label
  · obtain ⟨event, report, rfl, reading, selected⟩ := id chooses
    have same : state.step font (.read (some event) report) =
        state.handleEvent font event report := by
      simp only [step, reading]
    rcases control_handleEvent font event report state with ⟨id, selection, chosen⟩ | ⟨other, _⟩
    · rw [same]
      have chosen_eq : (state.handleEvent font event report).chosen = some id :=
        congrArg Control.chosen chosen
      have picked : some id = some ButtonId.netsurf := selection.symm.trans selected
      exact ⟨congrArg Control.activeApp chosen, fun _ => .inr chooses,
        fun _ => chosen_eq.trans picked⟩
    · exact absurd selected other
  · have stepped := state.step_cases font label
    generalize state.step font label = after at stepped ⊢
    simp only [chooses, or_false]
    cases stepped with
    | idle => exact ⟨rfl, Iff.rfl⟩
    | move position open_ inside busy => exact ⟨rfl, Iff.rfl⟩
    | signal open_ => exact ⟨rfl, Iff.rfl⟩
    | finish open_ =>
        have kept := control_finish state
        refine ⟨congrArg Control.activeApp kept, ?_⟩
        have chosen_eq : state.finish.chosen = state.chosen := congrArg Control.chosen kept
        rw [chosen_eq]
    | record event report label_eq reading =>
        rcases control_handleEvent font event report state with
          ⟨id, selection, chosen⟩ | ⟨_, more, position, _, _, kept⟩
        · have chosen_eq : (state.handleEvent font event report).chosen = some id :=
            congrArg Control.chosen chosen
          have unchosen : state.chosen = none := sound.unchosen (.inr (.inl reading))
          refine ⟨congrArg Control.activeApp chosen, ?_⟩
          rw [chosen_eq, unchosen]
          constructor
          · intro picked
            exact absurd ⟨event, report, label_eq, reading, selection.trans picked⟩ chooses
          · intro impossible
            cases impossible
        · have chosen_eq : (state.handleEvent font event report).chosen = state.chosen :=
            congrArg Control.chosen kept
          refine ⟨congrArg Control.activeApp kept, ?_⟩
          rw [chosen_eq]

/-- NetSurf is the active application and has been chosen. -/
def Forgets (state : State) : Prop :=
  state.activeApp = App.netsurf.name ∧ state.chosen = some .netsurf

/-- A step forgets NetSurf exactly when it chooses it while it is active. -/
theorem step_forgets {state : State} (sound : Sound state.control) (label : Label) :
    (state.step font label).Forgets ↔ state.Forgets ∨ ¬ state.LeavesNetsurf label := by
  obtain ⟨activeApp_eq, chosen_iff⟩ := step_choice font sound label
  rw [Forgets, activeApp_eq, chosen_iff, and_or_left, leavesNetsurf_iff, not_not]
  rfl

/-- At the start nothing has been chosen. -/
theorem start_not_forgets (found : Surroundings) : ¬ (start font found).Forgets := by
  rintro ⟨_, chosen⟩
  simp only [start] at chosen
  split at chosen <;> cases chosen

end State

/-- A run that ends leaves no process stopped exactly when none of its touches chooses
NetSurf while NetSurf is the active application. -/
theorem noneFrozen_exact (font : Font) (found : Surroundings) (labels : List Label)
    (ended : ((machine font found).run (machine font found).initial labels).position = .done) :
    NoneFrozen ((machine font found).run (machine font found).initial labels).commands ↔
      (machine font found).StepsMeet State.LeavesNetsurf (machine font found).initial labels := by
  have anything : (machine font found).StepsMeet (fun _ _ => True) (machine font found).initial
      labels := Machine.StepsMeet.of_forall fun _ _ => trivial
  have sound : State.Sound ((machine font found).run (machine font found).initial labels).control :=
    Machine.run_of_invariant (fun state => State.Sound state.control)
      (fun state label sound _ => State.sound_step font sound label)
      (State.sound_start font found) anything
  refine (sound.noneFrozen_iff ended).trans ?_
  apply Machine.not_spoiled_iff_stepsMeet (fun state => State.Sound state.control) State.Forgets
  · intro state label sound
    exact State.sound_step font sound label
  · intro state label sound
    exact State.step_forgets font sound label
  · exact State.sound_start font found
  · exact State.start_not_forgets font found

/-- A font without marks, for runs whose pictures do not matter. -/
def blankFont : Font := ⟨fun _ _ => 0, fun _ _ => 0⟩

/-- A white screen with `app` as the active application. -/
def whiteScreen (app : App) : Surroundings where
  files := AppFiles.setActiveApp app
  frame := fun _ _ => colorWhite

/-- Plato is stopped, a signal ends the switcher, and both processes of Plato go on. -/
theorem noneFrozen_exact_plato_terminated :
    NoneFrozen ((machine blankFont (whiteScreen .plato)).run
      (machine blankFont (whiteScreen .plato)).initial [.signal, .test]).commands := by
  refine (noneFrozen_exact blankFont (whiteScreen .plato) [.signal, .test] rfl).mpr ?_
  refine ⟨?_, ?_, trivial⟩
  · intro event report label_eq
    cases label_eq
  · intro event report label_eq
    cases label_eq

/-- The touch that presses and releases a point of the screen. -/
def tap (x y : Int32) : List Label :=
  [.test, .select .ready, .read (some ⟨3, 53, y⟩) [], .read (some ⟨3, 54, 1403 - x⟩) [],
    .read (some ⟨1, 330, 1⟩) [], .read (some ⟨0, 0, 0⟩) [], .read (some ⟨1, 330, 0⟩) [],
    .read (some ⟨0, 0, 0⟩) [], .test]

/-- NetSurf is the active application and is chosen again: it stays stopped. -/
theorem noneFrozen_netsurf_chosen_again :
    ¬ ∀ (font : Font) (found : Surroundings) (labels : List Label),
      ((machine font found).run (machine font found).initial labels).position = .done →
        NoneFrozen ((machine font found).run (machine font found).initial labels).commands := by
  intro claimed
  have commands : ((machine blankFont (whiteScreen .netsurf)).run
      (machine blankFont (whiteScreen .netsurf)).initial (tap 702 700)).commands =
      [.killall .stop .netsurfFb, .killall .kill .ld219, .killall .kill .plato,
        .killall .kill .luajit, .startBrowser] := by
    decide +kernel
  have released := claimed blankFont (whiteScreen .netsurf) (tap 702 700) (by decide +kernel)
  rw [commands] at released
  have forgotten := released [] .netsurfFb _ rfl
  revert forgotten
  decide

end Nookobo.Switcher
