import Mathlib.Data.List.DropRight
import Nookobo.Semantics.Run
import Nookobo.Switcher.Model

/-!
# Who asks for an application, and who reads the answer

Four programs ask for an application by writing `/tmp/current_app` and
`/tmp/active_reader`: the button watcher, the app switcher and two KOReader plugins. The
supervisor reads the answer through the shell, the watcher and the switcher through
`fgets`. A request is one step here; the switcher takes two, because it reads the active
application when it opens and decides by that name when it closes, and others may write in
between.

`Settled` says that the readers and both files name the application last asked for. Two of
the requesters write one file only and one sometimes writes none, so `Restores` states, for
each request, what the files must hold before it.
-/

namespace Nookobo.Requesters

open Nookobo.Semantics Nookobo.Text Nookobo.AppFiles

/-! ## Readers -/

/-- What `$(...)` makes of the output of `cat`: the shell drops NUL bytes and the line feeds
at the end. -/
def shellText (content : List UInt8) : List UInt8 :=
  (content.filter (· ≠ 0)).rdropWhile (· == lineFeed)

/-- `$(cat /tmp/current_app || cat /tmp/active_reader || echo koreader)`: an empty first file
is still an answer. -/
def supervisorRead (files : AppFiles) : List UInt8 :=
  match files.currentApp, files.activeReader with
  | some content, _ => shellText content
  | none, some content => shellText content
  | none, none => shellText (line .koreader)

/-- Both files hold a name, and the same one. -/
def SameName (files : AppFiles) : Prop :=
  ∃ name, name ≠ [] ∧ files.currentApp.map firstLine = some name ∧
    files.activeReader.map firstLine = some name

/-- Every reader yields the application, and the files hold one name. -/
structure Agree (files : AppFiles) (app : App) : Prop where
  supervisor : supervisorRead files = app.name
  watcher : getActiveApp files = app.name
  switcher : findActiveApp files = app.name
  sameName : SameName files

/-! ## Requesters -/

/-- What the app switcher leaves in the files when it is told to switch: nothing new for a
reader that was active as it opened, and for NetSurf the first file only. -/
def switchFiles (activeApp : List UInt8) (files : AppFiles) : App → AppFiles
  | .netsurf => { files with currentApp := some (line .netsurf) }
  | app => if activeApp = app.name then files else setActiveApp app

/-- `PlatoManager:onSwitchToPlato`, confirmed. -/
def onSwitchToPlato (files : AppFiles) : AppFiles :=
  { files with currentApp := some (line .plato), activeReader := some (line .plato) }

/-- `SwitchPlato:confirmSwitch`, confirmed: only the second file is written. -/
def confirmSwitch (files : AppFiles) : AppFiles :=
  { files with activeReader := some (line .plato) }

/-- The files, what each open switcher read, and the application last asked for. -/
structure Board where
  files : AppFiles
  switchers : List (List UInt8) := []
  requested : Option App := none

/-- Who asks for an application. -/
inductive Label where
  /-- A chord of the button watcher. -/
  | setActiveApp (app : App)
  /-- An app switcher opens and reads the active application. -/
  | openSwitcher
  /-- An open switcher ends with the button of an application. -/
  | choose (index : Nat) (app : App)
  | onSwitchToPlato
  | confirmSwitch
  /-- Someone who asks for nothing writes, as the supervisor does after an application. -/
  | others (files : AppFiles)

namespace Board

/-- The files written for a request, which is now the last. -/
def request (board : Board) (files : AppFiles) (app : App) : Board :=
  { board with files := files, requested := some app }

/-- A choice in a switcher that is not open changes nothing. -/
def step (board : Board) : Label → Board
  | .setActiveApp app => board.request (AppFiles.setActiveApp app) app
  | .openSwitcher => { board with switchers := board.switchers ++ [findActiveApp board.files] }
  | .choose index app =>
      match board.switchers[index]? with
      | none => board
      | some activeApp =>
          { board with switchers := board.switchers.eraseIdx index }.request
            (switchFiles activeApp board.files app) app
  | .onSwitchToPlato => board.request (Requesters.onSwitchToPlato board.files) .plato
  | .confirmSwitch => board.request (Requesters.confirmSwitch board.files) .plato
  | .others files => { board with files := files, requested := none }

/-- The application last asked for is the one every reader finds. -/
def Settled (board : Board) : Prop :=
  ∀ app, board.requested = some app → Agree board.files app

end Board

/-- Requests in any order over files with any contents. -/
def machine (files : AppFiles) : Machine Board Label where
  initial := { files := files }
  step := Board.step

/-! ## The switcher's own exit -/

/-- Resuming the active application leaves the files alone. -/
@[simp] theorem resume_files (state : Switcher.State) : state.resume.files = state.files := by
  unfold Switcher.State.resume Switcher.State.restore Switcher.State.system
  cases state.backup <;> rfl

/-- The switcher's exit branches leave the files `switchFiles` describes. -/
theorem finish_files (state : Switcher.State) {id : Switcher.ButtonId} {app : App}
    (chosen : state.chosen = some id) (named : id.app = some app) :
    state.finish.files = switchFiles state.activeApp state.files app := by
  cases id <;> simp only [Switcher.ButtonId.app, Option.some.injEq, reduceCtorEq] at named <;>
    subst named
  · by_cases active : state.activeApp = App.koreader.name <;>
      simp [Switcher.State.finish, Switcher.State.resumes, Switcher.State.system, switchFiles,
        chosen, active]
  · by_cases active : state.activeApp = App.plato.name <;>
      simp [Switcher.State.finish, Switcher.State.resumes, Switcher.State.system, switchFiles,
        chosen, active]
  · simp [Switcher.State.finish, Switcher.State.resumes, Switcher.State.system, switchFiles,
      chosen]

/-! ## Contents that name an application -/

/-- The content is the name of the application followed by nothing but line feeds and NUL
bytes. -/
def Names (app : App) (content : List UInt8) : Prop :=
  ∃ padding, content = app.name ++ padding ∧ ∀ byte ∈ padding, byte = 0 ∨ byte = lineFeed

/-- A name is a plain word. -/
theorem name_plain (app : App) :
    ∀ byte ∈ app.name, byte ≠ 0 ∧ isLineBreak byte = false := by
  have all : app.name.all (fun byte => byte != 0 && !isLineBreak byte) = true := by
    cases app <;> rfl
  simpa using all

/-- A name fits the buffers it is read into. -/
theorem name_length_le (app : App) : app.name.length ≤ 31 := by
  cases app <;> decide

/-- The shell reads a name back with what follows it. -/
theorem shellText_name_append (app : App) (rest : List UInt8) :
    shellText (app.name ++ rest) =
      (app.name ++ rest.filter (· ≠ 0)).rdropWhile (· == lineFeed) := by
  have kept : app.name.filter (· ≠ 0) = app.name := by
    rw [List.filter_eq_self]
    intro byte member
    simpa using (name_plain app byte member).1
  rw [shellText, List.filter_append, kept]

/-- Stripping the end of a text leaves its first part exactly when all the rest is
stripped. -/
theorem rdropWhile_name_append (app : App) (rest : List UInt8) :
    (app.name ++ rest).rdropWhile (· == lineFeed) = app.name ↔
      ∀ byte ∈ rest, byte = lineFeed := by
  have kept : app.name.rdropWhile (· == lineFeed) = app.name := by
    cases app <;> rfl
  induction rest using List.reverseRecOn with
  | nil => simp [kept]
  | append_singleton rest byte ih =>
      rw [← List.append_assoc, List.rdropWhile_concat]
      by_cases feed : byte = lineFeed
      · simp [feed, ih, or_imp]
      · simp [feed]

/-- The first line of a name with padding is the name. -/
theorem firstLine_name_append {app : App} {padding : List UInt8}
    (blank : ∀ byte ∈ padding, byte = 0 ∨ byte = lineFeed) :
    firstLine (app.name ++ padding) = app.name := by
  have fits : (app.name ++ padding).take 31 = app.name ++ padding.take (31 - app.name.length) := by
    rw [List.take_append, List.take_of_length_le (name_length_le app)]
  rw [firstLine, cString, List.takeWhile_takeWhile, fits, List.takeWhile_append_of_pos]
  · -- the first byte of the padding already ends the line
    cases padded : padding.take (31 - app.name.length) with
    | nil => simp
    | cons byte rest =>
        have member : byte ∈ padding.take (31 - app.name.length) := by simp [padded]
        rcases blank byte (List.mem_of_mem_take member) with rfl | rfl <;>
          simp [List.takeWhile, isLineBreak]
  · intro byte member
    simpa [and_comm] using name_plain app byte member

/-- The contents on which the shell and `fgets` both find the name. -/
theorem names_iff {app : App} {content : List UInt8} :
    Names app content ↔ firstLine content = app.name ∧ shellText content = app.name := by
  constructor
  · rintro ⟨padding, rfl, blank⟩
    refine ⟨firstLine_name_append blank, ?_⟩
    rw [shellText_name_append, rdropWhile_name_append]
    intro byte member
    obtain ⟨member, nonzero⟩ := List.mem_filter.mp member
    exact (blank byte member).resolve_left (by simpa using nonzero)
  · rintro ⟨first, whole⟩
    have isPrefix : app.name <+: content := by
      rw [← first]
      exact (List.takeWhile_prefix _).trans
        ((List.takeWhile_prefix _).trans (List.take_prefix _ _))
    obtain ⟨padding, rfl⟩ := isPrefix
    rw [shellText_name_append, rdropWhile_name_append] at whole
    refine ⟨padding, rfl, fun byte member => ?_⟩
    by_cases zero : byte = 0
    · exact .inl zero
    · exact .inr (whole byte (List.mem_filter.mpr ⟨member, by simpa using zero⟩))

/-! ## What each request needs -/

/-- The second file holds the name as its first line. -/
def ReaderNames (app : App) (files : AppFiles) : Prop :=
  ∃ content, files.activeReader = some content ∧ firstLine content = app.name

/-- The first file names the application to the shell and to `fgets`. -/
def CurrentNames (app : App) (files : AppFiles) : Prop :=
  ∃ content, files.currentApp = some content ∧ Names app content

/-- Agreement is a matter of the two contents. -/
theorem agree_iff {files : AppFiles} {app : App} :
    Agree files app ↔ CurrentNames app files ∧ ReaderNames app files := by
  obtain ⟨currentApp, activeReader⟩ := files
  constructor
  · rintro ⟨supervisor, watcher, -, name, named, inFirst, inSecond⟩
    obtain ⟨current, rfl, first⟩ := Option.map_eq_some_iff.mp inFirst
    obtain ⟨reader, rfl, second⟩ := Option.map_eq_some_iff.mp inSecond
    have found : name = app.name := by
      simpa [getActiveApp, first, named] using watcher
    exact ⟨⟨current, rfl, names_iff.mpr ⟨first.trans found, supervisor⟩⟩,
      reader, rfl, second.trans found⟩
  · rintro ⟨⟨current, first, names⟩, reader, second, line_eq⟩
    obtain ⟨firstLine_eq, whole⟩ := names_iff.mp names
    obtain rfl : currentApp = some current := first
    obtain rfl : activeReader = some reader := second
    have found : getActiveApp ⟨some current, some reader⟩ = app.name := by
      simp [getActiveApp, firstLine_eq, name_isEmpty]
    refine ⟨whole, found, found, app.name, ?_, by simp [firstLine_eq], by simp [line_eq]⟩
    cases app <;> decide

/-- A line with a name names the application. -/
theorem names_line (app : App) : Names app (line app) :=
  ⟨[lineFeed], rfl, by simp⟩

/-- The watcher's request names its application in both files. -/
theorem agree_setActiveApp (app : App) : Agree (setActiveApp app) app :=
  agree_iff.mpr ⟨⟨line app, rfl, names_line app⟩, line app, rfl, firstLine_line app⟩

/-- A request for NetSurf agrees when the other file names it already. -/
theorem agree_netsurf_iff (files : AppFiles) :
    Agree { files with currentApp := some (line .netsurf) } .netsurf ↔
      ReaderNames .netsurf files := by
  rw [agree_iff]
  exact ⟨fun agree => agree.2, fun reader => ⟨⟨_, rfl, names_line .netsurf⟩, reader⟩⟩

/-- A confirmed switch agrees when the current file names Plato already. -/
theorem agree_confirmSwitch_iff (files : AppFiles) :
    Agree (confirmSwitch files) .plato ↔ CurrentNames .plato files := by
  rw [agree_iff]
  exact ⟨fun agree => agree.1, fun current => ⟨current, _, rfl, firstLine_line .plato⟩⟩

/-- What the files must hold before a request for the readers to agree on it afterwards. The
watcher and `onSwitchToPlato` write both files and need nothing. -/
def Restores (board : Board) : Label → Prop
  | .choose index app =>
      ∀ activeApp, board.switchers[index]? = some activeApp →
        if app = .netsurf then ReaderNames .netsurf board.files
        else activeApp = app.name → CurrentNames app board.files ∧ ReaderNames app board.files
  | .confirmSwitch => CurrentNames .plato board.files
  | _ => True

/-- The files a choice leaves are agreed on exactly when the choice restores agreement. -/
theorem agree_switchFiles_iff (activeApp : List UInt8) (files : AppFiles) (app : App) :
    Agree (switchFiles activeApp files app) app ↔
      if app = .netsurf then ReaderNames .netsurf files
      else activeApp = app.name → CurrentNames app files ∧ ReaderNames app files := by
  have both : ∀ reader : App,
      Agree (if activeApp = reader.name then files else setActiveApp reader) reader ↔
        (activeApp = reader.name → CurrentNames reader files ∧ ReaderNames reader files) := by
    intro reader
    by_cases active : activeApp = reader.name
    · simp [active, agree_iff]
    · simp [active, agree_setActiveApp reader]
  cases app with
  | koreader => simpa [switchFiles] using both .koreader
  | plato => simpa [switchFiles] using both .plato
  | netsurf => simpa [switchFiles] using agree_netsurf_iff files

namespace Board

/-- A board with one more request is settled when its files agree. -/
@[simp] theorem settled_request_iff (board : Board) (files : AppFiles) (app : App) :
    (board.request files app).Settled ↔ Agree files app := by
  simp [Settled, request]

/-- A step from a settled board leaves it settled exactly when it restores agreement. -/
theorem settled_step_iff {board : Board} (settled : board.Settled) (label : Label) :
    (board.step label).Settled ↔ Restores board label := by
  cases label with
  | setActiveApp app => simp [step, Restores, agree_setActiveApp app]
  | openSwitcher => exact ⟨fun _ => trivial, fun _ => settled⟩
  | choose index app =>
      unfold step Restores
      cases opened : board.switchers[index]? with
      | none => simpa [opened] using settled
      | some activeApp => simp [opened, agree_switchFiles_iff]
  | onSwitchToPlato =>
      rw [step, settled_request_iff]
      exact ⟨fun _ => trivial, fun _ => agree_setActiveApp .plato⟩
  | confirmSwitch => simpa [step, Restores] using agree_confirmSwitch_iff board.files
  | others files => simp [step, Restores, Settled]

end Board

/-- Whatever the files held before and in whatever order the requests come, the readers and
both files name the requested application after every request exactly when each request
restores agreement from the files it found. -/
theorem requesters_agree_exact (files : AppFiles) (requests : List Label) :
    (machine files).Always Board.Settled (machine files).initial requests ↔
      (machine files).StepsMeet Restores (machine files).initial requests := by
  refine Machine.always_iff_stepsMeet_of_all Board.Settled (fun _ settled => settled) ?_ ?_ ?_
    requests
  · intro board label settled restores
    exact (Board.settled_step_iff settled label).mpr restores
  · intro board label settled misses
    exact (Board.settled_step_iff settled label).not.mpr misses
  · intro app requested
    cases requested

/-- The KOReader plugin writes the second file while the first still says `koreader`, and the
supervisor starts KOReader again. -/
theorem confirmSwitch_unseen :
    ¬ (machine (setActiveApp .koreader)).Always Board.Settled
      (machine (setActiveApp .koreader)).initial [.confirmSwitch] := by
  rintro ⟨-, settled⟩
  have agree : Agree (confirmSwitch (setActiveApp .koreader)) .plato := settled .plato rfl
  have read : supervisorRead (confirmSwitch (setActiveApp .koreader)) = App.koreader.name := by
    decide
  exact absurd (read.symm.trans agree.supervisor) (by decide)

end Nookobo.Requesters
