import Nookobo.Shim.FifoInput
import Nookobo.Webkey.Model

/-!
# Commands a request can inject

A parameter is decoded and then put on a command line that the shim reads in
pieces of at most 255 bytes and splits at CR and LF. `injection_exact` says which
parameters stay inside the one command of their route: those in which a line
break, escaped or not, is followed by nothing but line breaks, as far as the
decoder reads and the C string reaches, and whose line ends in the read that
reaches it.

`Piece` is the lexical unit of a parameter. The decoder maps pieces to bytes one
by one (`urlDecode_eq`), so the condition can be read off the request.
-/

namespace Nookobo.Webkey

open Nookobo.Text Nookobo.Shim.FifoInput

/-! ## The pieces of a parameter -/

/-- A piece of an encoded query. -/
inductive Piece where
  /-- `%` and two hexadecimal digits, given by their values. -/
  | escaped (high low : UInt8)
  | plus
  | literal (byte : UInt8)
deriving DecidableEq, Repr

/-- The byte a piece stands for. -/
def Piece.byte : Piece → UInt8
  | .escaped high low => 16 * high + low
  | .plus => space
  | .literal byte => byte

/-- The pieces of a parameter, with `skip` bytes still belonging to an escape. -/
def piecesFrom : Nat → List UInt8 → List Piece
  | _, [] => []
  | skip + 1, _ :: rest => piecesFrom skip rest
  | 0, byte :: rest =>
      if byte = 0 then []
      else
        match escape? (byte :: rest) with
        | some (high, low, _) => .escaped high low :: piecesFrom 2 rest
        | none =>
            if byte = plus then .plus :: piecesFrom 0 rest
            else .literal byte :: piecesFrom 0 rest

/-- The pieces of a parameter up to its final NUL. -/
def pieces (parameter : List UInt8) : List Piece := piecesFrom 0 parameter

/-- An escape is three bytes long. -/
theorem piecesFrom_escape {byte high low : UInt8} {rest after : List UInt8}
    (found : escape? (byte :: rest) = some (high, low, after)) :
    piecesFrom 2 rest = pieces after := by
  unfold escape? at found
  split at found
  · rename_i mark first second tail same
    simp only [List.cons.injEq] at same
    obtain ⟨_, rfl⟩ := same
    split at found
    · split at found
      · simp only [Option.some.injEq, Prod.mk.injEq] at found
        rw [← found.2.2]
        rfl
      · exact absurd found (by simp)
    · exact absurd found (by simp)
  · exact absurd found (by simp)

/-- The decoder takes the pieces one by one, as many as there is room for. -/
theorem urlDecodeLoop_eq (room : Nat) (src : List UInt8) :
    urlDecodeLoop room src = ((pieces src).take room).map Piece.byte := by
  induction room generalizing src with
  | zero => simp [urlDecodeLoop]
  | succ room ih =>
      cases src with
      | nil => simp [urlDecodeLoop, pieces, piecesFrom]
      | cons byte rest =>
          unfold urlDecodeLoop pieces piecesFrom
          split
          · rfl
          · cases found : escape? (byte :: rest) with
            | some escape =>
                obtain ⟨high, low, after⟩ := escape
                simp [ih, Piece.byte, piecesFrom_escape found]
            | none =>
                dsimp only
                split
                · simp [ih, Piece.byte, pieces]
                · simp [ih, Piece.byte, pieces]

/-- The decoder in terms of the pieces. -/
theorem urlDecode_eq (src : List UInt8) (maxLen : Nat) :
    urlDecode src maxLen = ((pieces src).take (maxLen - 1)).map Piece.byte :=
  urlDecodeLoop_eq (maxLen - 1) src

/-! ## The lines of a command -/

namespace Route

/-- The pieces of a parameter that end up on the command line: as many as the
buffer holds, up to the first one that stands for NUL. -/
def visible (route : Route) (parameter : List UInt8) : List Piece :=
  ((pieces parameter).take (route.capacity - 1)).takeWhile (·.byte ≠ 0)

/-- From the first line break on there are only line breaks. -/
def OneLine (route : Route) (parameter : List UInt8) : Prop :=
  ∀ piece ∈ (route.visible parameter).dropWhile (fun piece => !isLineBreak piece.byte),
    isLineBreak piece.byte = true

instance (route : Route) (parameter : List UInt8) : Decidable (route.OneLine parameter) :=
  inferInstanceAs (Decidable (∀ piece ∈ _, _))

/-- The pieces in front of the first line break. -/
def firstLine (route : Route) (parameter : List UInt8) : List Piece :=
  (route.visible parameter).takeWhile fun piece => !isLineBreak piece.byte

/-- The first line of the command is no longer than the room behind the bytes that wait. -/
def InOneRead (route : Route) (ahead : Nat) (parameter : List UInt8) : Prop :=
  route.tag.length + (route.firstLine parameter).length ≤ roomBehind ahead

instance (route : Route) (ahead : Nat) (parameter : List UInt8) :
    Decidable (route.InOneRead ahead parameter) :=
  inferInstanceAs (Decidable (_ ≤ _))

/-- A command line begins with a tag. -/
theorem tag_ne_nil (route : Route) : route.tag ≠ [] := by
  cases route <;> decide

/-- The tags have no line break. -/
theorem tag_noBreak (route : Route) : ∀ byte ∈ route.tag, isLineBreak byte = false := by
  have clean : route.tag.all (fun byte => !isLineBreak byte) = true := by
    cases route <;> decide
  intro byte member
  simpa using List.all_eq_true.mp clean byte member

/-- What the decoder leaves in its buffer, as a C string. -/
theorem decoded_eq (route : Route) (parameter : List UInt8) :
    cString (urlDecode parameter route.capacity) =
      (route.visible parameter).map Piece.byte := by
  rw [urlDecode_eq, cString, List.takeWhile_map]
  rfl

/-- The buffer of the command line is never too small. -/
theorem command_eq (route : Route) (parameter : List UInt8) :
    route.command parameter =
      route.tag ++ ((route.visible parameter).map Piece.byte ++ [lineFeed]) := by
  have short : (route.visible parameter).length ≤ route.capacity - 1 := by
    calc (route.visible parameter).length
        ≤ ((pieces parameter).take (route.capacity - 1)).length :=
          (List.takeWhile_sublist _).length_le
      _ ≤ route.capacity - 1 := List.length_take_le _ _
  have sizes : route.tag.length + (route.capacity - 1 + 1) ≤ route.lineSize - 1 := by
    cases route <;> decide
  unfold command
  rw [decoded_eq]
  apply List.take_of_length_le
  simp only [List.length_append, List.length_map, List.length_singleton]
  omega

/-- A tag has no NUL. -/
theorem tag_noNul (route : Route) : ∀ byte ∈ route.tag, byte ≠ 0 := by
  have clean : route.tag.all (fun byte => byte != 0) = true := by
    cases route <;> decide
  intro byte member
  simpa using List.all_eq_true.mp clean byte member

/-- A command line is a C string. -/
theorem command_noNul (route : Route) (parameter : List UInt8) :
    ∀ byte ∈ route.command parameter, byte ≠ 0 := by
  intro byte member
  rw [command_eq, List.mem_append, List.mem_append, List.mem_singleton] at member
  rcases member with inTag | inText | rfl
  · exact route.tag_noNul byte inTag
  · obtain ⟨piece, shown, rfl⟩ := List.mem_map.mp inText
    simpa using List.mem_takeWhile_imp shown
  · decide

/-- The first line and what is behind it. -/
theorem command_eq_lines (route : Route) (parameter : List UInt8) :
    route.command parameter = (route.tag ++ (route.firstLine parameter).map Piece.byte) ++
      (((route.visible parameter).dropWhile fun piece =>
        !isLineBreak piece.byte).map Piece.byte ++ [lineFeed]) := by
  rw [command_eq, firstLine, List.append_assoc, ← List.append_assoc (List.map _ _),
    ← List.map_append, List.takeWhile_append_dropWhile]

end Route

/-- What the shim makes of the bytes a request writes, when `ahead` bytes of complete lines wait
in front of them. -/
def commandLines (ahead : Nat) (path : List UInt8) : List (List UInt8) :=
  match (handlePath path).command with
  | none => []
  | some bytes => linesBehind ahead bytes

/-- The path of a route leads to that route. -/
theorem handlePath_route (route : Route) (parameter : List UInt8) :
    handlePath (route.path ++ parameter) = ⟨.ok, some (route.command parameter)⟩ := by
  have dispatched : routes.find? (fun other => other.path.isPrefixOf (route.path ++ parameter)) =
      some route := by
    cases route <;> rfl
  have notPage : ¬ (route.path ++ parameter = ascii "/" ∨
      route.path ++ parameter = ascii "/index.html") := by
    cases route <;> simp [Route.path, ascii]
  unfold handlePath
  rw [if_neg notPage, dispatched]
  simp

/-! ## A line in the FIFO -/

/-- There is room for a byte at least. -/
theorem roomBehind_pos (ahead : Nat) : 0 < roomBehind ahead :=
  Nat.sub_pos_of_lt (Nat.mod_lt ahead (by decide))

section Lines

variable {line rest : List UInt8} (nonempty : line ≠ [])
  (noBreak : ∀ byte ∈ line, isLineBreak byte = false)
  (ended : ∀ byte ∈ rest.head?, isLineBreak byte = true)
  (noNul : ∀ byte ∈ line ++ rest, byte ≠ 0)

include nonempty noBreak in
/-- A text without a line break is one line. -/
theorem tokens_of_noBreak : tokens line = [line] := by
  have whole := tokensAfter_append_of_noBreak noBreak [] []
  rw [List.append_nil, List.nil_append, tokensAfter_nil, flush_of_ne_nil nonempty] at whole
  exact whole

include nonempty noBreak ended noNul in
/-- A line that ends in the read that reaches it is handed on whole. -/
theorem linesBehind_of_le {ahead : Nat} (fits : line.length ≤ roomBehind ahead) :
    linesBehind ahead (line ++ rest) =
      line :: (tokens (rest.take (roomBehind ahead - line.length)) ++
        drain (rest.drop (roomBehind ahead - line.length))) := by
  have clean : cutsToken line (rest.take (roomBehind ahead - line.length)) = false := by
    unfold cutsToken
    split
    · next before after last first =>
      have isHead : rest.head? = some after := by
        rw [List.head?_take] at first
        split at first
        · cases first
        · exact first
      rw [ended after isHead, Bool.not_true, Bool.and_false]
    · rfl
  have string : cString (line ++ rest.take (roomBehind ahead - line.length)) =
      line ++ rest.take (roomBehind ahead - line.length) := by
    refine cString_of_noNul fun byte member => noNul byte ?_
    rcases List.mem_append.mp member with inLine | inRest
    · exact List.mem_append_left _ inLine
    · exact List.mem_append_right _ (List.mem_of_mem_take inRest)
  rw [linesBehind, List.take_append, List.drop_append, List.take_of_length_le fits,
    List.drop_eq_nil_of_le fits, List.nil_append, string, tokens_append_of_clean clean,
    tokens_of_noBreak nonempty noBreak]
  rfl

include noBreak noNul in
/-- A line that does not end in the read that reaches it comes in two pieces at least. -/
theorem two_le_linesBehind {ahead : Nat} (cut : roomBehind ahead < line.length) :
    2 ≤ (linesBehind ahead (line ++ rest)).length := by
  have positive := roomBehind_pos ahead
  have front : (line ++ rest).take (roomBehind ahead) = line.take (roomBehind ahead) :=
    List.take_append_of_le_length cut.le
  have behind : (line ++ rest).drop (roomBehind ahead) =
      line.drop (roomBehind ahead) ++ rest := List.drop_append_of_le_length cut.le
  have first : tokens (cString (line.take (roomBehind ahead))) ≠ [] := by
    rw [cString_of_noNul fun byte member =>
      noNul byte (List.mem_append_left _ (List.mem_of_mem_take member)),
      tokens_of_noBreak ?_ fun byte member => noBreak byte (List.mem_of_mem_take member)]
    · exact List.cons_ne_nil _ _
    · intro empty
      have length := congrArg List.length empty
      rw [List.length_take, List.length_nil] at length
      omega
  have second : drain (line.drop (roomBehind ahead) ++ rest) ≠ [] := by
    intro empty
    rw [drain_eq_nil_iff fun byte member => noNul byte (by
      rw [← List.take_append_drop (roomBehind ahead) (line ++ rest), behind]
      exact List.mem_append_right _ member)] at empty
    have length : (line.drop (roomBehind ahead)).length = line.length - roomBehind ahead :=
      List.length_drop
    obtain ⟨byte, member⟩ := List.exists_mem_of_length_pos (show 0 < _ by rw [length]; omega)
    have isBreak := empty byte (List.mem_append_left _ member)
    rw [noBreak byte (List.mem_of_mem_drop member)] at isBreak
    cases isBreak
  rw [linesBehind, front, behind, List.length_append]
  have one := List.length_pos_of_ne_nil first
  have other := List.length_pos_of_ne_nil second
  omega

include nonempty noBreak ended noNul in
/-- A line is all that the shim makes of the bytes exactly when it ends in one read and nothing
but line breaks is behind it. -/
theorem linesBehind_one_iff (ahead : Nat) :
    (linesBehind ahead (line ++ rest)).length ≤ 1 ↔
      (∀ byte ∈ rest, isLineBreak byte = true) ∧ line.length ≤ roomBehind ahead := by
  by_cases fits : line.length ≤ roomBehind ahead
  · have noNul' : ∀ byte ∈ rest, byte ≠ 0 :=
      fun byte member => noNul byte (List.mem_append_right _ member)
    have none : tokens (rest.take (roomBehind ahead - line.length)) ++
        drain (rest.drop (roomBehind ahead - line.length)) = [] ↔
          ∀ byte ∈ rest, isLineBreak byte = true := by
      rw [List.append_eq_nil_iff, tokens_eq_nil_iff, drain_eq_nil_iff fun byte member =>
        noNul' byte (List.mem_of_mem_drop member)]
      conv_rhs => rw [← List.take_append_drop (roomBehind ahead - line.length) rest]
      exact List.forall_mem_append.symm
    rw [linesBehind_of_le nonempty noBreak ended noNul fits, List.length_cons, and_iff_left fits,
      ← none, ← List.length_eq_zero_iff]
    omega
  · refine iff_of_false ?_ fun both => fits both.2
    have two := two_le_linesBehind noBreak noNul (Nat.lt_of_not_le fits)
    omega

end Lines

/-- A request on a parameter route makes the shim run at most one command, of the
route's own kind, exactly when a line break in its parameter is followed only by
line breaks and its line ends in the read that reaches it. -/
theorem injection_exact (ahead : Nat) (route : Route) (parameter : List UInt8) :
    ((commandLines ahead (route.path ++ parameter)).length ≤ 1 ∧
        ∀ line ∈ commandLines ahead (route.path ++ parameter), route.tag <+: line) ↔
      route.OneLine parameter ∧ route.InOneRead ahead parameter := by
  have whole := route.command_eq_lines parameter
  have lines : commandLines ahead (route.path ++ parameter) =
      linesBehind ahead (route.command parameter) := by
    unfold commandLines
    rw [handlePath_route]
  have nonempty : route.tag ++ (route.firstLine parameter).map Piece.byte ≠ [] :=
    List.append_ne_nil_of_left_ne_nil route.tag_ne_nil _
  have noBreak : ∀ byte ∈ route.tag ++ (route.firstLine parameter).map Piece.byte,
      isLineBreak byte = false := by
    intro byte member
    rcases List.mem_append.mp member with inTag | inText
    · exact route.tag_noBreak byte inTag
    · obtain ⟨piece, inLine, rfl⟩ := List.mem_map.mp inText
      simpa using List.mem_takeWhile_imp inLine
  have ended : ∀ byte ∈ (((route.visible parameter).dropWhile fun piece =>
      !isLineBreak piece.byte).map Piece.byte ++ [lineFeed]).head?,
      isLineBreak byte = true := by
    intro byte first
    cases left : (route.visible parameter).dropWhile fun piece => !isLineBreak piece.byte with
    | nil =>
        rw [left] at first
        cases first
        rfl
    | cons piece pieces =>
        rw [left] at first
        cases first
        have isHead := List.head_dropWhile_not (fun piece : Piece => !isLineBreak piece.byte)
          (show (route.visible parameter).dropWhile _ ≠ [] by rw [left]; exact List.cons_ne_nil _ _)
        simp only [left, List.head_cons, Bool.not_eq_false'] at isHead
        exact isHead
  have noNul := route.command_noNul parameter
  rw [whole] at noNul
  have one := linesBehind_one_iff nonempty noBreak ended noNul ahead
  have breaks : (∀ byte ∈ ((route.visible parameter).dropWhile fun piece =>
      !isLineBreak piece.byte).map Piece.byte ++ [lineFeed], isLineBreak byte = true) ↔
        route.OneLine parameter := by
    rw [List.forall_mem_append, List.forall_mem_map]
    exact and_iff_left (List.forall_mem_singleton.mpr rfl)
  have length : (route.tag ++ (route.firstLine parameter).map Piece.byte).length ≤
      roomBehind ahead ↔ route.InOneRead ahead parameter := by
    rw [List.length_append, List.length_map, Route.InOneRead]
  rw [lines, whole, one, breaks, length, and_iff_left_iff_imp]
  intro both line member
  rw [linesBehind_of_le nonempty noBreak ended noNul (length.mpr both.2)] at member
  have only := one.mpr ⟨breaks.mpr both.1, length.mpr both.2⟩
  rw [linesBehind_of_le nonempty noBreak ended noNul (length.mpr both.2), List.length_cons] at only
  rw [List.eq_nil_of_length_eq_zero (Nat.le_zero.mp (Nat.le_of_succ_le_succ only)),
    List.mem_singleton] at member
  rw [member]
  exact List.prefix_append _ _

/-- A text with an escaped newline opens a URL. -/
theorem injection_text_opens_url :
    commandLines 0 (ascii "/text?s=a%0AURL:http://x/") = [ascii "TEXT:a", ascii "URL:http://x/"] ∧
      ¬ (commandLines 0 (Route.text.path ++ ascii "a%0AURL:http://x/")).length ≤ 1 := by
  decide +kernel

/-- A text without a newline opens one too, behind 250 other bytes. -/
theorem injection_long_text_opens_url :
    commandLines 0 (Route.text.path ++ (List.replicate 250 97 ++ ascii "URL:http://x/")) =
        [ascii "TEXT:" ++ List.replicate 250 97, ascii "URL:http://x/"] ∧
      Route.text.OneLine (List.replicate 250 97 ++ ascii "URL:http://x/") := by
  decide +kernel

end Nookobo.Webkey
