import Nookobo.Audio.Model
import Nookobo.Switcher.Dialog
import Nookobo.Text.Readers

/-!
# The status report of the audio player

`audiocontrol.sh status` prints five lines. KOReader's audio plugin reads them with Lua
patterns, a line at a time and of any length; the app switcher reads them with `fgets` into a
buffer of 512 bytes. The plugin waits for a line `COUNT:` that the script calls `TOTAL:`, so
that it never learns how many tracks there are.
-/

namespace Nookobo.Audio

open Nookobo.Text Nookobo.Switcher

/-! ## The printer -/

/-- The lines at the end of `status`, from the shell variables. -/
def statusLines (cur track : List UInt8) (idx total : Nat) (shuf : Bool) : List (List UInt8) :=
  [ascii "STATUS:" ++ cur,
    ascii "TRACK:" ++ track,
    ascii "INDEX:" ++ numeral 10 idx,
    ascii "TOTAL:" ++ numeral 10 total,
    ascii "SHUFFLE:" ++ if shuf then ascii "1" else ascii "0"]

/-- What `echo` writes to `STATUSFILE`. -/
def Status.word : Status → List UInt8
  | .playing => ascii "PLAYING"
  | .paused => ascii "PAUSED"
  | .stopped => ascii "STOPPED"

/-- `CUR`, where `running` tells whether `kill -0` finds the process named in `PIDFILE`. -/
def Files.cur (files : Files) (running : Bool) : List UInt8 :=
  if files.pid.isSome ∧ running then (files.status.getD .playing).word else ascii "STOPPED"

/-- `status`. -/
def Files.statusOutput (files : Files) (running : Bool) : List UInt8 :=
  unlines (statusLines (files.cur running) (files.track.getD []) (files.index.getD 0)
    files.playlist.length (files.shuffle.getD false))

/-- A playback state: the status is a word, and the track the path of a file, on one line and no
longer than a name may be. -/
structure Playback where
  status : List UInt8
  track : List UInt8
  index : Nat
  total : Nat
  shuffle : Bool
  status_word : ∀ byte ∈ status, isSpace byte = false ∧ byte ≠ 0
  track_line : ∀ byte ∈ track, byte ≠ lineFeed ∧ byte ≠ 0
  track_short : track.length ≤ 255
  track_file : track.getLast? ≠ some 47

/-- The report of a playback state. -/
def Playback.report (playback : Playback) : List UInt8 :=
  unlines (statusLines playback.status playback.track playback.index playback.total
    playback.shuffle)

/-- The words of the status have no white space. -/
theorem Status.word_isWord (status : Status) :
    ∀ byte ∈ status.word, isSpace byte = false ∧ byte ≠ 0 := by
  cases status <;> exact List.all_iff_forall_prop.mp (by decide)

/-- What is reported as status has no white space. -/
theorem Files.cur_isWord (files : Files) (running : Bool) :
    ∀ byte ∈ files.cur running, isSpace byte = false ∧ byte ≠ 0 := by
  unfold Files.cur
  split
  · exact Status.word_isWord _
  · exact Status.word_isWord .stopped

/-- The playback state that the files stand for, if what `TRACKFILE` holds is such a path. -/
def Files.playback (files : Files) (running : Bool)
    (line : ∀ byte ∈ files.track.getD [], byte ≠ lineFeed ∧ byte ≠ 0)
    (short : (files.track.getD []).length ≤ 255)
    (isFile : (files.track.getD []).getLast? ≠ some 47) : Playback where
  status := files.cur running
  track := files.track.getD []
  index := files.index.getD 0
  total := files.playlist.length
  shuffle := files.shuffle.getD false
  status_word := files.cur_isWord running
  track_line := line
  track_short := short
  track_file := isFile

/-- The report of a playback state is what the command prints. -/
theorem report_playback (files : Files) (running : Bool)
    (line : ∀ byte ∈ files.track.getD [], byte ≠ lineFeed ∧ byte ≠ 0)
    (short : (files.track.getD []).length ≤ 255)
    (isFile : (files.track.getD []).getLast? ≠ some 47) :
    (files.playback running line short isFile).report = files.statusOutput running := rfl

/-! ## The plugin -/

/-- What `getStatus` returns. -/
structure PlayerStatus where
  status : List UInt8 := ascii "STOPPED"
  track : List UInt8 := []
  shuffle : Bool := false
  count : LuaNumber := .finite 0
  index : LuaNumber := .finite 0
deriving DecidableEq

/-- `line:match("^KEY(.*)")`. -/
def matchKey (key line : List UInt8) : Option (List UInt8) :=
  if key.isPrefixOf line then some (line.drop key.length) else none

/-- The body of the loop over the lines. -/
def PlayerStatus.readLine (player : PlayerStatus) (line : List UInt8) : PlayerStatus where
  status := (matchKey (ascii "STATUS:") line).getD player.status
  track := (matchKey (ascii "TRACK:") line).getD player.track
  shuffle := player.shuffle || matchKey (ascii "SHUFFLE:") line == some (ascii "1")
  count :=
    match matchKey (ascii "COUNT:") line with
    | some cnt => (tonumber cnt).getD (.finite 0)
    | none => player.count
  index :=
    match matchKey (ascii "INDEX:") line with
    | some idx => (tonumber idx).getD (.finite 0)
    | none => player.index

/-- `AudioPlayer:getStatus`, given what the pipe delivers. -/
def getStatus (output : List UInt8) : PlayerStatus :=
  (lines output).foldl PlayerStatus.readLine {}

/-- A key in front of a text is matched. -/
theorem matchKey_append (key rest : List UInt8) : matchKey key (key ++ rest) = some rest := by
  unfold matchKey
  rw [if_pos (List.isPrefixOf_iff_prefix.mpr (List.prefix_append key rest)), List.drop_left]

/-- A word has no line feed. -/
theorem lineFeed_notMem_of_word {text : List UInt8}
    (word : ∀ byte ∈ text, isSpace byte = false ∧ byte ≠ 0) : lineFeed ∉ text :=
  fun member => absurd (word lineFeed member).1 (by decide)

/-- Two texts without a line feed have none together. -/
theorem lineFeed_notMem_append {key text : List UInt8} (inKey : lineFeed ∉ key)
    (inText : lineFeed ∉ text) : lineFeed ∉ key ++ text := by
  rw [List.mem_append, not_or]
  exact ⟨inKey, inText⟩

/-- None of the lines has a line break in it. -/
theorem lineFeed_notMem_statusLines (playback : Playback) :
    ∀ line ∈ statusLines playback.status playback.track playback.index playback.total
      playback.shuffle, lineFeed ∉ line := by
  have status := lineFeed_notMem_of_word playback.status_word
  have track : lineFeed ∉ playback.track := fun member => (playback.track_line _ member).1 rfl
  have shuffle : lineFeed ∉ (if playback.shuffle then ascii "1" else ascii "0") := by
    split <;> decide
  unfold statusLines
  simp only [List.forall_mem_cons, List.not_mem_nil, false_implies, implies_true, and_true]
  exact ⟨lineFeed_notMem_append (by decide) status, lineFeed_notMem_append (by decide) track,
    lineFeed_notMem_append (by decide) (lineFeed_notMem_numeral _),
    lineFeed_notMem_append (by decide) (lineFeed_notMem_numeral _),
    lineFeed_notMem_append (by decide) shuffle⟩

section Plugin

variable (player : PlayerStatus) (text : List UInt8)

/-- A line with the status sets it. -/
theorem readLine_status :
    player.readLine (ascii "STATUS:" ++ text) = { player with status := text } := by
  have found := matchKey_append (ascii "STATUS:") text
  unfold PlayerStatus.readLine
  rw [found]
  exact congrArg (fun shuffle => { player with status := text, shuffle })
    (Bool.or_false player.shuffle)

/-- A line with the track sets it. -/
theorem readLine_track :
    player.readLine (ascii "TRACK:" ++ text) = { player with track := text } := by
  have found := matchKey_append (ascii "TRACK:") text
  unfold PlayerStatus.readLine
  rw [found]
  exact congrArg (fun shuffle => { player with track := text, shuffle })
    (Bool.or_false player.shuffle)

/-- A line with the index sets it, to 0 where it is no number. -/
theorem readLine_index :
    player.readLine (ascii "INDEX:" ++ text) =
      { player with index := (tonumber text).getD (.finite 0) } := by
  have found := matchKey_append (ascii "INDEX:") text
  unfold PlayerStatus.readLine
  rw [found]
  exact congrArg
    (fun shuffle => { player with index := (tonumber text).getD (.finite 0), shuffle })
    (Bool.or_false player.shuffle)

/-- The plugin does not know the line with the number of tracks. -/
theorem readLine_total : player.readLine (ascii "TOTAL:" ++ text) = player :=
  congrArg (fun shuffle => { player with shuffle }) (Bool.or_false player.shuffle)

/-- A line with the shuffle flag raises it or does nothing. -/
theorem readLine_shuffle (shuffle : Bool) :
    player.readLine (ascii "SHUFFLE:" ++ if shuffle then ascii "1" else ascii "0") =
      { player with shuffle := player.shuffle || shuffle } := by
  cases shuffle <;> rfl

end Plugin

/-- What the plugin makes of a report: the number of tracks is lost, and the index is rounded. -/
theorem getStatus_report (playback : Playback) :
    getStatus playback.report =
      { status := playback.status
        track := playback.track
        shuffle := playback.shuffle
        count := .finite 0
        index := toDouble playback.index } := by
  unfold getStatus Playback.report
  rw [lines_unlines (lineFeed_notMem_statusLines playback)]
  unfold statusLines
  simp only [List.foldl_cons, List.foldl_nil, readLine_status, readLine_track, readLine_index,
    readLine_total, readLine_shuffle, tonumber_numeral, Option.getD_some, Bool.false_or]

/-! ## The app switcher -/

/-- Everything before the first carriage return. -/
def beforeReturn (text : List UInt8) : List UInt8 := text.takeWhile (· ≠ carriageReturn)

/-- What stands before a carriage return goes on past a text without one. -/
theorem beforeReturn_append {front : List UInt8} (without : carriageReturn ∉ front)
    (back : List UInt8) : beforeReturn (front ++ back) = front ++ beforeReturn back := by
  refine List.takeWhile_append_of_pos fun byte member => ?_
  rw [decide_eq_true_eq]
  rintro rfl
  exact without member

/-- Without a carriage return all of the text stands before it. -/
theorem beforeReturn_of_notMem {text : List UInt8} (without : carriageReturn ∉ text) :
    beforeReturn text = text := by
  have whole := beforeReturn_append without []
  rw [List.append_nil] at whole
  exact whole.trans (List.append_nil text)

/-- The line that `query_music_status` finds in a piece, which may end with a line break. -/
theorem cut_piece {text : List UInt8} (proper : ∀ byte ∈ text, byte ≠ lineFeed ∧ byte ≠ 0)
    {ended : List UInt8} (atEnd : ended = [] ∨ ended = [lineFeed]) :
    (cString (text ++ ended)).takeWhile (fun byte => !isLineBreak byte) = beforeReturn text := by
  induction text with
  | nil => rcases atEnd with rfl | rfl <;> rfl
  | cons byte rest ih =>
      obtain ⟨⟨noBreak, nonzero⟩, later⟩ := List.forall_mem_cons.mp proper
      have ahead := ih later
      unfold cString beforeReturn at ahead ⊢
      rw [List.cons_append, List.takeWhile_cons_of_pos (by simpa using nonzero)]
      by_cases isReturn : byte = carriageReturn
      · subst isReturn
        rfl
      · have inside : (!isLineBreak byte) = true := by
          unfold isLineBreak
          rw [beq_false_of_ne noBreak, beq_false_of_ne isReturn]
          rfl
        rw [List.takeWhile_cons_of_pos (p := fun byte => !isLineBreak byte) inside, ahead,
          List.takeWhile_cons_of_pos (by simpa using isReturn)]

section Switcher

variable (music : MusicStatus) {text ended : List UInt8}

/-- The pieces of the report and what the app switcher sees of each. -/
theorem readLine_piece (proper : ∀ byte ∈ text, byte ≠ lineFeed ∧ byte ≠ 0)
    (atEnd : ended = [] ∨ ended = [lineFeed]) :
    music.readLine (text ++ ended) =
      if (ascii "STATUS:").isPrefixOf (beforeReturn text) then
        { music with status := bounded 32 ((beforeReturn text).drop 7) }
      else if (ascii "TRACK:").isPrefixOf (beforeReturn text) then
        { music with track := bounded 256 (baseName ((beforeReturn text).drop 6)) }
      else if (ascii "SHUFFLE:1").isPrefixOf (beforeReturn text) then
        { music with shuffle := true }
      else music := by
  unfold MusicStatus.readLine
  rw [cut_piece proper atEnd]

/-- Each of the keys has an S or an R in it. -/
theorem readLine_quiet {piece : List UInt8} (noS : 83 ∉ piece) (noR : 82 ∉ piece) :
    music.readLine piece = music := by
  have noKey : ∀ key : List UInt8, 83 ∈ key ∨ 82 ∈ key → key.isPrefixOf
      ((cString piece).takeWhile fun byte => !isLineBreak byte) = false := by
    intro key letter
    rw [Bool.eq_false_iff]
    intro isPrefix
    have inLine : ∀ byte ∈ key, byte ∈ piece := fun byte member =>
      (List.takeWhile_sublist _).subset ((List.takeWhile_sublist _).subset
        ((List.isPrefixOf_iff_prefix.mp isPrefix).subset member))
    rcases letter with isS | isR
    · exact noS (inLine _ isS)
    · exact noR (inLine _ isR)
  unfold MusicStatus.readLine
  simp only [noKey (ascii "STATUS:") (by decide), noKey (ascii "TRACK:") (by decide),
    noKey (ascii "SHUFFLE:1") (by decide), Bool.false_eq_true, if_false]

/-- Lines with neither `S` nor `R` tell the switcher nothing. -/
theorem foldl_readLine_quiet {pieces : List (List UInt8)}
    (quiet : ∀ piece ∈ pieces, 83 ∉ piece ∧ 82 ∉ piece) :
    pieces.foldl MusicStatus.readLine music = music := by
  induction pieces with
  | nil => rfl
  | cons piece rest ih =>
      obtain ⟨first, later⟩ := List.forall_mem_cons.mp quiet
      rw [List.foldl_cons, readLine_quiet music first.1 first.2, ih later]

/-- The lines with the numbers are passed over, however long the numbers are. -/
theorem foldl_readLine_number {key : List UInt8} (noS : 83 ∉ key) (noR : 82 ∉ key)
    (number : Nat) :
    (fgetsAll 512 (key ++ numeral 10 number ++ [lineFeed])).foldl MusicStatus.readLine music =
      music := by
  refine foldl_readLine_quiet music fun piece isPiece => ?_
  have outside : ∀ byte, byte ∉ key → isDigit byte = false → byte ≠ lineFeed → byte ∉ piece := by
    intro byte notKey noDigit noBreak member
    have inText := mem_of_mem_fgetsAll isPiece member
    rw [List.mem_append, List.mem_append, List.mem_singleton] at inText
    rcases inText with (inKey | digit) | isBreak
    · exact notKey inKey
    · exact absurd (isDigit_numeral number byte digit) (Bool.eq_false_iff.mp noDigit)
    · exact noBreak isBreak
  exact ⟨outside 83 noS (by decide) (by decide), outside 82 noR (by decide) (by decide)⟩

/-- A word in pieces, with or without the line break at its end. -/
theorem foldl_readLine_word {current : List UInt8}
    (wordCurrent : ∀ byte ∈ current, byte ≠ lineFeed ∧ byte ≠ 0)
    (wordText : ∀ byte ∈ text, byte ≠ lineFeed ∧ byte ≠ 0) (size : Nat) :
    (fgetsFrom size current (text ++ [lineFeed])).foldl MusicStatus.readLine music =
      (fgetsFrom size current text).foldl MusicStatus.readLine music := by
  induction text generalizing current music with
  | nil =>
      have atBreak : fgetsFrom size current [lineFeed] = [current ++ [lineFeed]] := by
        rw [fgetsFrom, if_pos (.inl rfl)]
        rfl
      have ended := readLine_piece music wordCurrent (.inr rfl)
      rw [List.nil_append, atBreak, fgetsFrom]
      by_cases empty : current = []
      · rw [empty]
        rfl
      · rw [flush_of_ne_nil empty, List.foldl_cons, List.foldl_cons, List.foldl_nil,
          List.foldl_nil, ended, ← readLine_piece music wordCurrent (.inl rfl), List.append_nil]
  | cons byte rest ih =>
      obtain ⟨first, later⟩ := List.forall_mem_cons.mp wordText
      rw [List.cons_append, fgetsFrom, fgetsFrom]
      split
      · rw [List.foldl_cons, List.foldl_cons]
        exact ih _ (by simp) later
      · refine ih _ (fun other member => ?_) later
        rcases List.mem_append.mp member with old | new
        · exact wordCurrent other old
        · rwa [List.mem_singleton.mp new]

end Switcher

/-! ### A status word that does not fit -/

/-- What the app switcher reads of a status word behind the first piece, which has room for 504
bytes of it. -/
def laterPieces (status : List UInt8) : List (List UInt8) := fgetsAll 512 (status.drop 504)

/-- The line with the status sets the status, and its later pieces are read as lines. -/
theorem foldl_readLine_status {status : List UInt8}
    (word : ∀ byte ∈ status, byte ≠ lineFeed ∧ byte ≠ 0) (without : carriageReturn ∉ status)
    (music : MusicStatus) :
    (fgetsAll 512 (ascii "STATUS:" ++ status ++ [lineFeed])).foldl MusicStatus.readLine music =
      (laterPieces status).foldl MusicStatus.readLine
        { music with status := status.take 31 } := by
  have key : ∀ byte ∈ ascii "STATUS:", byte ≠ lineFeed ∧ byte ≠ 0 :=
    List.all_iff_forall_prop.mp (by decide)
  have reads : ∀ text ended : List UInt8, (∀ byte ∈ text, byte ∈ status) →
      text.take 31 = status.take 31 → (ended = [] ∨ ended = [lineFeed]) →
      music.readLine (ascii "STATUS:" ++ text ++ ended) =
        { music with status := status.take 31 } := by
    intro text ended inside begins atEnd
    have proper : ∀ byte ∈ ascii "STATUS:" ++ text, byte ≠ lineFeed ∧ byte ≠ 0 :=
      List.forall_mem_append.mpr ⟨key, fun byte member => word byte (inside byte member)⟩
    have whole : beforeReturn (ascii "STATUS:" ++ text) = ascii "STATUS:" ++ text := by
      rw [beforeReturn_append (by decide),
        beforeReturn_of_notMem fun member => without (inside _ member)]
    rw [readLine_piece music proper atEnd, whole,
      if_pos (List.isPrefixOf_iff_prefix.mpr (List.prefix_append _ _))]
    exact congrArg (fun status => { music with status }) begins
  by_cases short : status.length ≤ 503
  · have fits : (ascii "STATUS:" ++ status).length + 2 ≤ 512 := by
      rw [List.length_append, show (ascii "STATUS:").length = 7 from rfl]
      omega
    have proper : lineFeed ∉ ascii "STATUS:" ++ status :=
      lineFeed_notMem_append (by decide) fun member => (word _ member).1 rfl
    have nothing : laterPieces status = [] := by
      unfold laterPieces
      rw [List.drop_eq_nil_of_le (by omega)]
      rfl
    rw [fgetsAll_short proper fits, nothing, List.foldl_cons, List.foldl_nil, List.foldl_nil]
    exact reads status _ (fun _ member => member) rfl (.inr rfl)
  · have cut : status = status.take 504 ++ status.drop 504 :=
      (List.take_append_drop 504 status).symm
    have proper : lineFeed ∉ ascii "STATUS:" ++ status.take 504 :=
      lineFeed_notMem_append (by decide) fun member =>
        (word _ (List.mem_of_mem_take member)).1 rfl
    have fills :
        ([] : List UInt8).length + (ascii "STATUS:" ++ status.take 504).length + 1 = 512 := by
      rw [List.length_append, List.length_take, show (ascii "STATUS:").length = 7 from rfl,
        List.length_nil]
      omega
    have split : fgetsAll 512 (ascii "STATUS:" ++ status ++ [lineFeed]) =
        (ascii "STATUS:" ++ status.take 504) :: fgetsAll 512 (status.drop 504 ++ [lineFeed]) := by
      have some : ascii "STATUS:" ++ status.take 504 ≠ [] := List.cons_ne_nil _ _
      have first := fgetsFrom_full proper some fills (status.drop 504 ++ [lineFeed])
      rw [List.nil_append, ← List.append_assoc, List.append_assoc (ascii "STATUS:"),
        List.take_append_drop] at first
      exact first
    have later : ∀ byte ∈ status.drop 504, byte ≠ lineFeed ∧ byte ≠ 0 :=
      fun byte member => word byte (List.mem_of_mem_drop member)
    have begins := reads (status.take 504) [] (fun _ => List.mem_of_mem_take)
      (by rw [List.take_take]; rfl) (.inl rfl)
    rw [List.append_nil] at begins
    rw [split, List.foldl_cons, begins]
    exact foldl_readLine_word _ (by simp) later 512

/-- Of several pieces the last one with the key decides on the status. -/
theorem status_foldl_readLine {pieces : List (List UInt8)}
    (words : ∀ piece ∈ pieces, beforeReturn piece = piece ∧
      ∀ byte ∈ piece, byte ≠ lineFeed ∧ byte ≠ 0) (music : MusicStatus) :
    (pieces.foldl MusicStatus.readLine music).status =
      ((pieces.filter (ascii "STATUS:").isPrefixOf).getLast?.map
        fun piece => (piece.drop 7).take 31).getD music.status := by
  induction pieces generalizing music with
  | nil => rfl
  | cons piece rest ih =>
      obtain ⟨⟨whole, proper⟩, later⟩ := List.forall_mem_cons.mp words
      have reads := readLine_piece music proper (.inl rfl)
      rw [List.append_nil, whole] at reads
      rw [List.foldl_cons, ih later, reads]
      by_cases isStatus : (ascii "STATUS:").isPrefixOf piece = true
      · rw [if_pos isStatus, List.filter_cons_of_pos isStatus, List.getLast?_cons]
        cases (rest.filter (ascii "STATUS:").isPrefixOf).getLast? <;> rfl
      · rw [if_neg isStatus, List.filter_cons_of_neg isStatus]
        congr 1
        split
        · rfl
        · split <;> rfl

/-- A text does not begin with two keys, unless one begins with the other. -/
theorem no_second_key {first second text : List UInt8}
    (differ : ¬ (first.isPrefixOf second ∨ second.isPrefixOf first))
    (begins : first.isPrefixOf text = true) : ¬ second.isPrefixOf text = true := by
  rw [List.isPrefixOf_iff_prefix] at begins ⊢
  intro other
  refine differ ?_
  rw [List.isPrefixOf_iff_prefix, List.isPrefixOf_iff_prefix]
  exact List.prefix_or_prefix_of_prefix begins other

/-- One piece with the key is enough to turn shuffling on. -/
theorem shuffle_foldl_readLine {pieces : List (List UInt8)}
    (words : ∀ piece ∈ pieces, beforeReturn piece = piece ∧
      ∀ byte ∈ piece, byte ≠ lineFeed ∧ byte ≠ 0) (music : MusicStatus) :
    (pieces.foldl MusicStatus.readLine music).shuffle =
      (music.shuffle || pieces.any (ascii "SHUFFLE:1").isPrefixOf) := by
  induction pieces generalizing music with
  | nil => exact (Bool.or_false _).symm
  | cons piece rest ih =>
      obtain ⟨⟨whole, proper⟩, later⟩ := List.forall_mem_cons.mp words
      have reads := readLine_piece music proper (.inl rfl)
      rw [List.append_nil, whole] at reads
      have first : (music.readLine piece).shuffle =
          (music.shuffle || (ascii "SHUFFLE:1").isPrefixOf piece) := by
        rw [reads]
        by_cases isShuffle : (ascii "SHUFFLE:1").isPrefixOf piece = true
        · rw [if_neg (no_second_key (by decide) isShuffle), if_neg (no_second_key (by decide)
            isShuffle), if_pos isShuffle, isShuffle, Bool.or_true]
        · rw [if_neg isShuffle, Bool.eq_false_iff.mpr isShuffle, Bool.or_false]
          split
          · rfl
          · split <;> rfl
      rw [List.foldl_cons, ih later, first, List.any_cons, Bool.or_assoc]

/-- The lines behind the first are read as they stand. -/
theorem words_laterPieces {status : List UInt8}
    (word : ∀ byte ∈ status, byte ≠ lineFeed ∧ byte ≠ 0) (without : carriageReturn ∉ status) :
    ∀ piece ∈ laterPieces status, beforeReturn piece = piece ∧
      ∀ byte ∈ piece, byte ≠ lineFeed ∧ byte ≠ 0 := by
  intro piece isPiece
  have inside : ∀ byte ∈ piece, byte ∈ status :=
    fun byte member => List.mem_of_mem_drop (mem_of_mem_fgetsAll isPiece member)
  exact ⟨beforeReturn_of_notMem fun member => without (inside _ member),
    fun byte member => word byte (inside byte member)⟩

/-- The status is one line. -/
theorem Playback.status_line (playback : Playback) :
    ∀ byte ∈ playback.status, byte ≠ lineFeed ∧ byte ≠ 0 := by
  intro byte member
  obtain ⟨noSpace, nonzero⟩ := playback.status_word byte member
  refine ⟨?_, nonzero⟩
  rintro rfl
  exact absurd noSpace (by decide)

/-- The status has no carriage return. -/
theorem Playback.status_noReturn (playback : Playback) : carriageReturn ∉ playback.status :=
  fun member => absurd (playback.status_word _ member).1 (by decide)

/-- The state of the app switcher before it reads the track. -/
def Playback.statusPart (playback : Playback) : MusicStatus :=
  (laterPieces playback.status).foldl MusicStatus.readLine { status := playback.status.take 31 }

/-- What the app switcher makes of a report. -/
theorem queryMusicStatus_report (playback : Playback) :
    queryMusicStatus (fgetsAll 512 playback.report) =
      { status := playback.statusPart.status
        track := baseName (beforeReturn playback.track)
        shuffle := playback.statusPart.shuffle || playback.shuffle } := by
  have trackProper : ∀ byte ∈ ascii "TRACK:" ++ playback.track, byte ≠ lineFeed ∧ byte ≠ 0 :=
    List.forall_mem_append.mpr ⟨List.all_iff_forall_prop.mp (by decide), playback.track_line⟩
  have trackFits : (ascii "TRACK:" ++ playback.track).length + 2 ≤ 512 := by
    have short := playback.track_short
    rw [List.length_append, show (ascii "TRACK:").length = 6 from rfl]
    omega
  have trackShort : (baseName (beforeReturn playback.track)).length ≤ 255 := by
    have taken := (List.takeWhile_sublist (· ≠ carriageReturn) (l := playback.track)).length_le
    have base := (List.takeWhile_sublist (· ≠ 47)
      (l := (beforeReturn playback.track).reverse)).length_le
    have short := playback.track_short
    unfold baseName
    unfold beforeReturn at base ⊢
    rw [List.length_reverse] at base ⊢
    omega
  have readsTrack : ∀ music : MusicStatus,
      music.readLine (ascii "TRACK:" ++ playback.track ++ [lineFeed]) =
        { music with track := baseName (beforeReturn playback.track) } := by
    intro music
    have whole : beforeReturn (ascii "TRACK:" ++ playback.track) =
        ascii "TRACK:" ++ beforeReturn playback.track := beforeReturn_append (by decide) _
    have isTrack : (ascii "TRACK:").isPrefixOf (ascii "TRACK:" ++ beforeReturn playback.track) =
        true := List.isPrefixOf_iff_prefix.mpr (List.prefix_append _ _)
    rw [readLine_piece music trackProper (.inr rfl), whole,
      if_neg (no_second_key (by decide) isTrack), if_pos isTrack]
    exact congrArg (fun track => { music with track }) (List.take_of_length_le trackShort)
  have readsShuffle : ∀ music : MusicStatus,
      music.readLine (ascii "SHUFFLE:" ++ (if playback.shuffle then ascii "1" else ascii "0") ++
        [lineFeed]) = { music with shuffle := music.shuffle || playback.shuffle } := by
    intro music
    cases playback.shuffle
    · exact congrArg (fun shuffle => { music with shuffle }) (Bool.or_false _).symm
    · exact congrArg (fun shuffle => { music with shuffle }) (Bool.or_true _).symm
  have shuffleFits : fgetsAll 512 (ascii "SHUFFLE:" ++
      (if playback.shuffle then ascii "1" else ascii "0") ++ [lineFeed]) =
        [ascii "SHUFFLE:" ++ (if playback.shuffle then ascii "1" else ascii "0") ++
          [lineFeed]] := by
    cases playback.shuffle <;> rfl
  unfold queryMusicStatus Playback.report statusLines Playback.statusPart
  simp only [unlines_cons, unlines_nil]
  rw [fgetsAll_line, List.foldl_append,
    foldl_readLine_status playback.status_line playback.status_noReturn, fgetsAll_line,
    List.foldl_append, fgetsAll_short (fun member => (trackProper _ member).1 rfl) trackFits,
    List.foldl_cons, List.foldl_nil, readsTrack, fgetsAll_line, List.foldl_append,
    foldl_readLine_number _ (by decide) (by decide), fgetsAll_line, List.foldl_append,
    foldl_readLine_number _ (by decide) (by decide), shuffleFits, List.foldl_cons,
    List.foldl_nil, readsShuffle]

/-! ## Agreement -/

/-- The name of a file: what is behind the last slash of its path. -/
def fileName (path : List UInt8) : List UInt8 := (path.splitOn 47).getLast?.getD []

/-- The switcher's base name is the player's file name. -/
theorem baseName_eq_fileName (path : List UInt8) : baseName path = fileName path := by
  have noSlash : ∀ name : List UInt8, 47 ∉ name → ∀ byte ∈ name, decide (byte ≠ 47) = true := by
    intro name without byte member
    rw [decide_eq_true_eq]
    rintro rfl
    exact without member
  unfold baseName fileName
  by_cases slash : (47 : UInt8) ∈ path.reverse
  · obtain ⟨name, folder, backwards, without⟩ := List.eq_append_cons_of_mem slash
    have forwards : path = folder.reverse ++ 47 :: name.reverse := by
      rw [← List.reverse_reverse path, backwards]
      simp
    have last : name.reverse.splitOn 47 = [name.reverse] :=
      List.splitOn_eq_singleton (by simpa using without)
    rw [backwards, List.takeWhile_append_of_pos (noSlash name without),
      List.takeWhile_cons_of_neg (by decide), List.append_nil, forwards,
      List.splitOn_append_cons_self, last, List.getLast?_concat]
    rfl
  · rw [List.takeWhile_eq_self_iff.mpr (noSlash _ slash), List.reverse_reverse,
      List.splitOn_eq_singleton (by simpa using slash)]
    rfl

/-- Both readers of the report find the playback state in it. -/
def Playback.Agrees (playback : Playback) : Prop :=
  getStatus playback.report =
      { status := playback.status
        track := playback.track
        shuffle := playback.shuffle
        count := .finite playback.total
        index := .finite playback.index } ∧
    queryMusicStatus (fgetsAll 512 playback.report) =
      { status := playback.status.take 31
        track := fileName playback.track
        shuffle := playback.shuffle }

instance (playback : Playback) : Decidable playback.Agrees :=
  inferInstanceAs (Decidable (_ ∧ _))

/-- When they do: there is no track to count, the index is a double, a carriage return in the
path does not hide the name of the file, and what does not fit of the status word has neither a
second status nor the flag in it. -/
structure Playback.Readable (playback : Playback) : Prop where
  noTracks : playback.total = 0
  index : isDouble playback.index
  track : fileName (beforeReturn playback.track) = fileName playback.track
  status : ∀ piece ∈ ((laterPieces playback.status).filter (ascii "STATUS:").isPrefixOf).getLast?,
    (piece.drop 7).take 31 = playback.status.take 31
  shuffle : ∀ piece ∈ laterPieces playback.status,
    (ascii "SHUFFLE:1").isPrefixOf piece = true → playback.shuffle = true

/-- With a word as short as the script's own, only the tracks and the index remain. -/
theorem readable_iff_of_short {playback : Playback} (short : playback.status.length ≤ 504) :
    playback.Readable ↔ playback.total = 0 ∧ isDouble playback.index ∧
      fileName (beforeReturn playback.track) = fileName playback.track := by
  have nothing : laterPieces playback.status = [] := by
    unfold laterPieces
    rw [List.drop_eq_nil_of_le short]
    rfl
  constructor
  · intro readable
    exact ⟨readable.noTracks, readable.index, readable.track⟩
  · rintro ⟨noTracks, index, track⟩
    refine ⟨noTracks, index, track, ?_, ?_⟩
    · rw [nothing]
      rintro _ ⟨⟩
    · rw [nothing]
      rintro _ ⟨⟩

/-- The two readers agree with the printer exactly under these conditions. -/
theorem agrees_iff_readable (playback : Playback) : playback.Agrees ↔ playback.Readable := by
  have words := words_laterPieces playback.status_line playback.status_noReturn
  have status : playback.statusPart.status = playback.status.take 31 ↔
      ∀ piece ∈ ((laterPieces playback.status).filter (ascii "STATUS:").isPrefixOf).getLast?,
        (piece.drop 7).take 31 = playback.status.take 31 := by
    unfold Playback.statusPart
    rw [status_foldl_readLine words]
    cases ((laterPieces playback.status).filter (ascii "STATUS:").isPrefixOf).getLast? with
    | none => exact iff_of_true rfl (by rintro _ ⟨⟩)
    | some piece =>
        constructor
        · rintro same _ ⟨⟩
          exact same
        · intro same
          exact same piece rfl
  have shuffle : (playback.statusPart.shuffle || playback.shuffle) = playback.shuffle ↔
      ∀ piece ∈ laterPieces playback.status,
        (ascii "SHUFFLE:1").isPrefixOf piece = true → playback.shuffle = true := by
    unfold Playback.statusPart
    rw [shuffle_foldl_readLine words, Bool.false_or, Bool.or_eq_right_iff_imp, List.any_eq_true]
    constructor
    · intro implied piece isPiece begins
      exact implied ⟨piece, isPiece, begins⟩
    · rintro implied ⟨piece, isPiece, begins⟩
      exact implied piece isPiece begins
  unfold Playback.Agrees
  rw [getStatus_report, queryMusicStatus_report, PlayerStatus.mk.injEq, MusicStatus.mk.injEq,
    LuaNumber.finite.injEq, toDouble_eq_finite_iff, baseName_eq_fileName, status, shuffle]
  constructor
  · rintro ⟨⟨-, -, -, none, index⟩, statusPart, track, shufflePart⟩
    exact ⟨none.symm, index, track, statusPart, shufflePart⟩
  · intro readable
    exact ⟨⟨rfl, rfl, rfl, readable.noTracks.symm, readable.index⟩, readable.status,
      readable.track, readable.shuffle⟩

/-- Three tracks of a playlist, the second of them playing. -/
def threeTracks : Playback where
  status := ascii "PLAYING"
  track := ascii "/data/music/two.mp3"
  index := 1
  total := 3
  shuffle := false
  status_word := List.all_iff_forall_prop.mp (by decide)
  track_line := List.all_iff_forall_prop.mp (by decide)
  track_short := by decide
  track_file := by decide

/-- The plugin is told of no track at all, and shows an empty playlist. -/
theorem threeTracks_not_counted :
    ¬ threeTracks.Agrees ∧ (getStatus threeTracks.report).count = .finite 0 := by decide

end Nookobo.Audio
