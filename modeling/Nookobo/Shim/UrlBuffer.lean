import Nookobo.Shim.KeyLabels
import Nookobo.Text.Buffer

/-!
# The array of the address

`State.url` is the string in `g_current_url`. Here is the array itself: every call of a step works
on its 1024 bytes and on the arrays it has on its own stack, and has no result once it leaves one
of them. `address_in_bounds` says that this never happens, that the last byte of the array is 0
after every step, and that the array holds the string of the model.

Each call keeps `Address` when the guard in front of it holds (`Fits`); that the guards of the
source are enough is `fits_calls`.
-/

namespace Nookobo.Shim

open Nookobo.Semantics Nookobo.Text Nookobo.Text.Buffer

/-- The arrays a call has on the stack, with what happens to stand in them. -/
structure Locals where
  target : Buffer 1024
  queryEnc : Buffer 1024
  cstr : Buffer 8
  displayBuf : Buffer 80
  oskBuf : Buffer 128

namespace Locals

variable (locals : Locals)

/-- `display_buf` in `draw_url_bar_overlay`. -/
def display (url : Buffer 1024) : Option (Buffer 80) := do
  let text ← url.string
  let buffer ← locals.displayBuf.snprintf 80 (ascii "URL: " ++ text)
  let length ← buffer.strlen
  if 64 < length then
    let buffer ← buffer.store 61 46
    let buffer ← buffer.store 62 46
    let buffer ← buffer.store 63 46
    buffer.store 64 0
  else some buffer

/-- `osk_buf` in `draw_osk_input_preview`. -/
def preview (focused : Bool) (url : Buffer 1024) : Option (Buffer 128) := do
  let text ← url.string
  if !focused || text.isEmpty then some locals.oskBuf else locals.oskBuf.snprintf 128 text

/-- `cstr` with the bytes of a code point. -/
def encodeChar (codePoint : Nat) : Option (Buffer 8) := do
  let cstr ← locals.cstr.memset 0 8
  if codePoint < 128 then cstr.store 0 codePoint.toUInt8
  else if codePoint < 0x800 then
    let cstr ← cstr.store 0 (0xC0 + codePoint / 64).toUInt8
    cstr.store 1 (0x80 + codePoint % 64).toUInt8
  else some cstr

/-- The code point of a character key at the end of the address. -/
def appendChar (codePoint : Nat) (url : Buffer 1024) : Option (Buffer 1024) := do
  let cstr ← locals.encodeChar codePoint
  let text ← cstr.string
  url.strcat text

/-- The loop that fills `query_enc`, and the NUL behind it. -/
def encodeQuery : List UInt8 → Nat → Buffer 1024 → Option (Buffer 1024)
  | [], q, buffer => buffer.store q 0
  | byte :: rest, q, buffer =>
      if q < 1024 - 2 then
        (buffer.store q (if byte = 32 then 43 else byte)).bind (encodeQuery rest (q + 1))
      else buffer.store q 0

/-- `target` for the Enter key. -/
def enterTarget (text : List UInt8) : Option (Buffer 1024) :=
  let trimmed := text.dropWhile (· = 32)
  if trimmed.contains 32 ||
      (strstr (ascii "://") trimmed).isNone && !trimmed.contains 46 then do
    let queryEnc ← encodeQuery trimmed 0 locals.queryEnc
    let query ← queryEnc.string
    locals.target.snprintf 1024 (ascii "https://lite.duckduckgo.com/lite/?q=" ++ query)
  else locals.target.snprintf 1024 trimmed

/-- The target of the Enter key over the address. -/
def enter (url : Buffer 1024) : Option (Buffer 1024) := do
  let text ← url.string
  let target ← locals.enterTarget text
  let text ← target.string
  url.strncpy text (1024 - 1)

end Locals

namespace ScreenCall

/-- What a call makes of the array, if all its accesses are in bounds. -/
def access (locals : Locals) (url : Buffer 1024) : ScreenCall → Option (Buffer 1024)
  | .urlBar => (locals.display url).map fun _ => url
  | .preview _ focused | .osk _ focused => (locals.preview focused url).map fun _ => url
  | .clear => url.memset 0 1024
  | .chop => url.strlen.bind fun length => url.store ((length + 0xFFFFFFFF) % 0x100000000) 0
  | .append text => url.strcat text
  | .appendChar codePoint => locals.appendChar codePoint url
  | .enter => locals.enter url
  | .copy text => url.strncpy text (1024 - 1)
  | .oskKey _ _ _ | .restore _ | .pixels _ => some url

/-- Calls in a row; what stands on the stack may be something else for each. -/
def accessAll : (Nat → Locals) → List ScreenCall → Buffer 1024 → Option (Buffer 1024)
  | _, [], url => some url
  | stack, call :: rest, url =>
      (call.access (stack 0) url).bind (accessAll (fun depth => stack (depth + 1)) rest)

end ScreenCall

/-! ## The start -/

/-- `g_current_url` as it is initialised. -/
def initialUrl : Buffer 1024 :=
  ⟨ascii "https://lite.duckduckgo.com" ++ List.replicate 997 0, by
    rw [List.length_append, List.length_replicate]
    rfl⟩

/-- The search of `init_current_url` for an address among the arguments, which end in NULs. -/
def findUrl (buf : Buffer 2048) (n p : Nat) : Option (Option (List UInt8)) :=
  if p < n then
    (buf.stringAt p).bind fun argument =>
      if (ascii "http://").isPrefixOf argument || (ascii "https://").isPrefixOf argument then
        some (some argument)
      else findUrl buf n (p + argument.length + 1)
  else some none
termination_by n - p

/-- `init_current_url`, with the bytes of `/proc/self/cmdline` when it can be opened. -/
def initCurrentUrl (cmdline : Option (List UInt8)) (buf : Buffer 2048) : Option (Buffer 1024) :=
  match cmdline with
  | none => some initialUrl
  | some bytes =>
      let n := min bytes.length (2048 - 1)
      if n = 0 then some initialUrl
      else do
        let buf ← buf.putBytes 0 (bytes.take (2048 - 1))
        let buf ← buf.store n 0
        let found ← findUrl buf n 0
        match found with
        | none => some initialUrl
        | some argument => initialUrl.strncpy argument (1024 - 1)

/-- The shim with the array beside its string; there is no array once an access was out of
bounds. -/
structure UrlSession where
  state : State
  array : Option (Buffer 1024)

/-- A command is handled as a C string. -/
def Label.asString : Label → Label
  | .fifo cmd => .fifo (cString cmd)
  | label => label

/-- A step with what stands on the stack of its calls. -/
def UrlSession.step (font : Font) (session : UrlSession) (label : Label × (Nat → Locals)) :
    UrlSession where
  state := session.state.step font label.1.asString
  array := session.array.bind
    (ScreenCall.accessAll label.2 (session.state.calls label.1.asString))

/-- `SDL_SetVideoMode` draws the address bar once the address is found. -/
def urlMachine (font : Font) (cmdline : Option (List UInt8)) (buf : Buffer 2048)
    (stack : Nat → Locals) : Machine UrlSession (Label × (Nat → Locals)) where
  initial :=
    { state := .setVideoMode font (((initCurrentUrl cmdline buf).bind Buffer.string).getD [])
      array := (initCurrentUrl cmdline buf).bind (ScreenCall.accessAll stack [.urlBar]) }
  step := UrlSession.step font

/-- All accesses have been in bounds, the array ends in a NUL, and its string is that of the
model. -/
def UrlSession.InBounds (session : UrlSession) : Prop :=
  ∃ array, session.array = some array ∧ array.load 1023 = some 0 ∧
    array.string = some session.state.url ∧ session.state.url.length ≤ 1023

/-! ## Each call -/

/-- The array holds the address and ends in a NUL. -/
structure Address (array : Buffer 1024) (url : List UInt8) : Prop where
  holds : array.Holds url
  closed : array.load 1023 = some 0

/-- The bytes of a code point other than 0. -/
theorem nulFree_charBytes {codePoint : Nat} (positive : 0 < codePoint) :
    ∀ byte ∈ State.charBytes codePoint, byte ≠ 0 := by
  have nonzero : ∀ value : Nat, 0 < value → value < 256 → value.toUInt8 ≠ 0 := by
    intro value some small zero
    have same := congrArg UInt8.toNat zero
    rw [UInt8.toNat_ofNat_of_lt' small] at same
    exact absurd same (Nat.ne_of_gt some)
  unfold State.charBytes
  split
  · intro byte member
    rw [List.mem_singleton.mp member]
    exact nonzero codePoint positive (by omega)
  · split
    · intro byte member
      simp only [List.mem_cons, List.not_mem_nil, or_false] at member
      rcases member with rfl | rfl
      · exact nonzero _ (by omega) (by omega)
      · exact nonzero _ (by omega) (by omega)
    · intro byte member
      cases member

/-- No character of the keyboard has more than two bytes. -/
theorem length_charBytes (codePoint : Nat) : (State.charBytes codePoint).length ≤ 2 := by
  unfold State.charBytes
  split
  · exact Nat.le_succ 1
  · split
    · exact Nat.le_refl 2
    · exact Nat.zero_le 2

namespace Locals

variable {array : Buffer 1024} {text : List UInt8} (locals : Locals)

/-- What `display_buf` holds is the text in the picture of the address bar. -/
theorem display_drawn (holds : array.Holds text) :
    ∃ buffer shown, locals.display array = some buffer ∧ buffer.Holds shown ∧
      ∀ font, drawUrlBarOverlay font text = .stack
        [fbDrawRect 145 6 1175 58 colorWhite, fbDrawRectOutline 145 6 1175 58 2 colorBlack,
          fbDrawUtf8String font 160 19 shown 2 colorBlack colorWhite] := by
  have free : ∀ byte ∈ ascii "URL: " ++ text, byte ≠ 0 :=
    nulFree_append (List.all_iff_forall_prop.mp (by decide)) holds.nulFree
  obtain ⟨buffer, prints, printed⟩ := snprintf_holds free (Nat.le_refl 80) locals.displayBuf
  unfold display
  simp only [holds.string, prints, printed.strlen, Option.bind_eq_bind, Option.bind_some]
  by_cases long : 64 < ((ascii "URL: " ++ text).take 79).length
  · have inFront : ((ascii "URL: " ++ text).take 79).take 61 <+: buffer.bytes :=
      ((List.take_prefix _ _).trans (List.prefix_append _ _)).trans printed.stored
    have front : (((ascii "URL: " ++ text).take 79).take 61).length = 61 := by
      rw [List.length_take]
      omega
    have dotsFree : ∀ byte ∈ ascii "...", byte ≠ 0 := List.all_iff_forall_prop.mp (by decide)
    obtain ⟨after, stores, holdsDots, _⟩ := putBytes_string dotsFree buffer inFront
      (fun byte member => printed.nulFree byte (List.mem_of_mem_take member))
      (by rw [front]; decide)
    rw [front] at stores
    refine ⟨after, _, ?_, holdsDots, fun font => ?_⟩
    · have four : ascii "..." ++ [0] = [46, 46, 46, 0] := rfl
      rw [if_pos long, ← stores, four]
      simp only [putBytes, Option.bind_fun_some]
    · unfold drawUrlBarOverlay
      dsimp only
      rw [if_pos long]
  · refine ⟨buffer, _, if_neg long, printed, fun font => ?_⟩
    unfold drawUrlBarOverlay
    dsimp only
    rw [if_neg long]

/-- The preview stays in its buffers, whatever text the address holds. -/
theorem preview_isSome (focused : Bool) (holds : array.Holds text) :
    ∃ buffer, locals.preview focused array = some buffer := by
  unfold preview
  simp only [holds.string, Option.bind_eq_bind, Option.bind_some]
  split
  · exact ⟨_, rfl⟩
  · obtain ⟨after, prints, _⟩ := snprintf_holds holds.nulFree (Nat.le_refl 128) locals.oskBuf
    exact ⟨after, prints⟩

/-- A character is encoded inside its buffer. -/
theorem encodeChar_holds {codePoint : Nat} (positive : 0 < codePoint) :
    ∃ cstr, locals.encodeChar codePoint = some cstr ∧ cstr.Holds (State.charBytes codePoint) := by
  have free := nulFree_charBytes positive
  unfold encodeChar
  simp only [memset_zeros, Option.bind_eq_bind, Option.bind_some]
  unfold State.charBytes at free ⊢
  by_cases one : codePoint < 128
  · rw [if_pos one] at free
    rw [if_pos one, if_pos one]
    exact ⟨_, rfl, free, ⟨List.replicate 6 0, rfl⟩⟩
  · rw [if_neg one] at free
    rw [if_neg one, if_neg one]
    by_cases two : codePoint < 0x800
    · rw [if_pos two] at free
      rw [if_pos two, if_pos two]
      exact ⟨_, rfl, free, ⟨List.replicate 5 0, rfl⟩⟩
    · rw [if_neg two, if_neg two]
      exact ⟨_, rfl, holds_zeros 7⟩

/-- The bytes of a code point other than 0 are appended. -/
theorem appendChar_holds (holds : array.Holds text) {codePoint : Nat} (positive : 0 < codePoint)
    (room : text.length + 2 < 1024) :
    ∃ after, locals.appendChar codePoint array = some after ∧
      after.Holds (text ++ State.charBytes codePoint) ∧
      ∀ offset, text.length + 2 < offset → after.load offset = array.load offset := by
  have short := length_charBytes codePoint
  obtain ⟨cstr, fills, held⟩ := locals.encodeChar_holds positive
  obtain ⟨after, appends, appended, frame⟩ :=
    holds.strcat (nulFree_charBytes positive) (by omega)
  refine ⟨after, ?_, appended, fun offset beyond => frame offset (by omega)⟩
  unfold appendChar
  simp only [fills, held.string, Option.bind_eq_bind, Option.bind_some]
  exact appends

/-! ### The Enter key -/

/-- The byte of a search for a byte of the text. -/
theorem encoded_ne_zero {byte : UInt8} (nonzero : byte ≠ 0) :
    (if byte = 32 then 43 else byte) ≠ (0 : UInt8) := by
  split
  · decide
  · exact nonzero

/-- The loop stores what fits, and a NUL behind it. -/
theorem encodeQuery_eq (text : List UInt8) (q : Nat) (buffer : Buffer 1024) :
    encodeQuery text q buffer =
      buffer.putBytes q
        ((text.take (1022 - q)).map (fun byte => if byte = 32 then 43 else byte) ++ [0]) := by
  induction text generalizing q buffer with
  | nil =>
      rw [encodeQuery, List.take_nil, List.map_nil, List.nil_append, putBytes]
      exact (Option.bind_fun_some _).symm
  | cons byte rest ih =>
      unfold encodeQuery
      by_cases inside : q < 1022
      · obtain ⟨left, count⟩ : ∃ left, 1022 - q = left + 1 := ⟨1021 - q, by omega⟩
        have next : 1022 - (q + 1) = left := by omega
        rw [if_pos inside, count, List.take_succ_cons, List.map_cons, List.cons_append, putBytes]
        congr 1
        funext after
        rw [ih, next]
      · have none : 1022 - q = 0 := by omega
        rw [if_neg inside, none, List.take_zero, List.map_nil, List.nil_append, putBytes]
        exact (Option.bind_fun_some _).symm

/-- `target` holds the target of the Enter key. -/
theorem enterTarget_holds (nulFree : ∀ byte ∈ text, byte ≠ 0) :
    ∃ target, locals.enterTarget text = some target ∧ target.Holds (State.enterTarget text) := by
  unfold enterTarget State.enterTarget
  dsimp only
  generalize trims : text.dropWhile (· = 32) = trimmed
  have trimmedFree : ∀ byte ∈ trimmed, byte ≠ 0 := by
    rw [← trims]
    exact fun byte member => nulFree byte ((List.dropWhile_suffix _).subset member)
  split
  · have queryFree : ∀ byte ∈ (trimmed.take 1022).map
        (fun byte => if byte = 32 then 43 else byte), byte ≠ 0 := by
      intro byte member
      obtain ⟨original, among, rfl⟩ := List.mem_map.mp member
      exact encoded_ne_zero (trimmedFree original (List.mem_of_mem_take among))
    have short : ((trimmed.take 1022).map
        (fun byte : UInt8 => if byte = 32 then (43 : UInt8) else byte)).length ≤ 1022 := by
      rw [List.length_map]
      exact List.length_take_le _ _
    obtain ⟨queryEnc, encodes, encoded, _⟩ := putBytes_string queryFree locals.queryEnc
      List.nil_prefix (fun byte member => by cases member) (by rw [List.length_nil]; omega)
    have addressFree : ∀ byte ∈ ascii "https://lite.duckduckgo.com/lite/?q=", byte ≠ 0 :=
      List.all_iff_forall_prop.mp (by decide)
    obtain ⟨target, prints, printed⟩ := snprintf_holds (nulFree_append addressFree queryFree)
      (Nat.le_refl 1024) locals.target
    have fills : encodeQuery trimmed 0 locals.queryEnc = some queryEnc := by
      rw [encodeQuery_eq, Nat.sub_zero]
      exact encodes
    refine ⟨target, ?_, printed⟩
    exact Option.bind_eq_some_iff.mpr
      ⟨queryEnc, fills, Option.bind_eq_some_iff.mpr ⟨_, encoded.string, prints⟩⟩
  · exact snprintf_holds trimmedFree (Nat.le_refl 1024) locals.target

/-- The whole target is copied over the address. -/
theorem enter_address (address : Address array text) :
    ∃ after, locals.enter array = some after ∧ Address after (State.enterTarget text) := by
  obtain ⟨target, makes, made⟩ := locals.enterTarget_holds address.holds.nulFree
  obtain ⟨after, copies, copied, closed⟩ :=
    strncpy_holds made.nulFree (by decide : 1023 < 1024) address.closed
  have whole : (State.enterTarget text).take 1023 = State.enterTarget text :=
    List.take_of_length_le (Nat.le_of_lt_succ made.length_lt)
  rw [whole] at copied
  refine ⟨after, ?_, copied, closed⟩
  exact Option.bind_eq_some_iff.mpr ⟨text, address.holds.string, Option.bind_eq_some_iff.mpr
    ⟨target, makes, Option.bind_eq_some_iff.mpr ⟨_, made.string, copies⟩⟩⟩

end Locals

/-! ## Calls under their guards -/

namespace ScreenCall

/-- What the guard in front of a call makes sure of. -/
def Fits (url : List UInt8) : ScreenCall → Prop
  | .chop => url ≠ []
  | .append text => (∀ byte ∈ text, byte ≠ 0) ∧ url.length + text.length < 1023
  | .appendChar codePoint => 0 < codePoint ∧ url.length + 2 < 1023
  | .copy text => ∀ byte ∈ text, byte ≠ 0
  | _ => True

/-- Each call fits the address that the calls before it leave. -/
def FitsAll : List UInt8 → List ScreenCall → Prop
  | _, [] => True
  | url, call :: rest => call.Fits url ∧ FitsAll (call.edit url) rest

/-- Two lists of calls fit when the first does and the second on what it leaves. -/
theorem fitsAll_append {url : List UInt8} {first second : List ScreenCall} :
    FitsAll url (first ++ second) ↔ FitsAll url first ∧ FitsAll (first.foldl edit url) second := by
  induction first generalizing url with
  | nil => exact ⟨fun all => ⟨trivial, all⟩, fun all => all.2⟩
  | cons call rest ih =>
      simp only [List.cons_append, List.foldl_cons, FitsAll, ih, and_assoc]

end ScreenCall

namespace Address

variable {array : Buffer 1024} {url : List UInt8}

/-- A call that fits stays in bounds and does to the array what it does to the string. -/
theorem access (address : Address array url) {call : ScreenCall} (fits : call.Fits url)
    (locals : Locals) :
    ∃ after, call.access locals array = some after ∧ Address after (call.edit url) := by
  have bound := address.holds.length_lt
  cases call with
  | urlBar =>
      obtain ⟨buffer, _, shows, _⟩ := locals.display_drawn address.holds
      exact ⟨array, congrArg (Option.map fun _ => array) shows, address⟩
  | preview lang focused =>
      obtain ⟨buffer, shows⟩ := locals.preview_isSome focused address.holds
      exact ⟨array, congrArg (Option.map fun _ => array) shows, address⟩
  | osk mode focused =>
      obtain ⟨buffer, shows⟩ := locals.preview_isSome focused address.holds
      exact ⟨array, congrArg (Option.map fun _ => array) shows, address⟩
  | clear =>
      exact ⟨zeros 1024, memset_zeros array, holds_zeros 1023, load_zeros (by decide)⟩
  | chop =>
      have positive : 0 < url.length := List.length_pos_iff.mpr fits
      have last : (url.length + 0xFFFFFFFF) % 0x100000000 = url.length - 1 := by omega
      obtain ⟨after, stores, holds, frame⟩ := address.holds.chop fits
      rw [← last] at stores
      exact ⟨after, Option.bind_eq_some_iff.mpr ⟨_, address.holds.strlen, stores⟩, holds,
        (frame 1023 (by omega)).trans address.closed⟩
  | append text =>
      obtain ⟨after, appends, holds, frame⟩ :=
        address.holds.strcat fits.1 (by have := fits.2; omega)
      exact ⟨after, appends, holds, (frame 1023 fits.2).trans address.closed⟩
  | appendChar codePoint =>
      obtain ⟨after, appends, holds, frame⟩ :=
        locals.appendChar_holds address.holds fits.1 (by have := fits.2; omega)
      exact ⟨after, appends, holds, (frame 1023 fits.2).trans address.closed⟩
  | enter => exact locals.enter_address address
  | copy text =>
      obtain ⟨after, copies, holds, closed⟩ :=
        strncpy_holds fits (by decide : 1023 < 1024) address.closed
      exact ⟨after, copies, holds, closed⟩
  | oskKey mode key pressed => exact ⟨array, rfl, address⟩
  | restore backup => exact ⟨array, rfl, address⟩
  | pixels layer => exact ⟨array, rfl, address⟩

/-- Calls that fit stay in the address buffer and leave the text they should. -/
theorem accessAll (address : Address array url) {calls : List ScreenCall}
    (fits : ScreenCall.FitsAll url calls) (stack : Nat → Locals) :
    ∃ after, ScreenCall.accessAll stack calls array = some after ∧
      Address after (calls.foldl ScreenCall.edit url) := by
  induction calls generalizing array url stack with
  | nil => exact ⟨array, rfl, address⟩
  | cons call rest ih =>
      obtain ⟨middle, first, between⟩ := address.access fits.1 (stack 0)
      obtain ⟨after, later, final⟩ := ih between fits.2 fun depth => stack (depth + 1)
      exact ⟨after, Option.bind_eq_some_iff.mpr ⟨middle, first, later⟩, final⟩

end Address

/-! ## The guards are enough -/

/-- A character key sends no NUL. -/
theorem layout_positive (mode : OskMode) : ∀ key ∈ buildOskLayout mode.lang, key.action = .char →
    0 < key.unicode mode := by
  obtain ⟨lang, shift, symbols⟩ := mode
  cases lang with
  | english => revert shift symbols; decide +kernel
  | russian => revert shift symbols; decide +kernel

/-- What a command brings is part of its line. -/
theorem nulFree_payload {cmd payload : List UInt8} (nulFree : ∀ byte ∈ cmd, byte ≠ 0)
    (carries : fifoCommand cmd = some (.text payload) ∨ fifoCommand cmd = some (.url payload)) :
    ∀ byte ∈ payload, byte ≠ 0 := by
  have part : ∀ count, ∀ byte ∈ cmd.drop count, byte ≠ 0 :=
    fun count byte member => nulFree byte (List.mem_of_mem_drop member)
  unfold fifoCommand at carries
  split at carries
  · rcases carries with found | found
    · exact absurd (State.isKey_of_lookup found) Bool.false_ne_true
    · exact absurd (State.isKey_of_lookup found) Bool.false_ne_true
  · split at carries
    · rcases carries with same | same
      · cases same
        exact part 5
      · cases same
    · split at carries
      · rcases carries with same | same
        · cases same
        · cases same
          exact part 4
      · split at carries
        · rcases carries with same | same
          · obtain ⟨point, _, differs⟩ := Option.map_eq_some_iff.mp same
            cases differs
          · obtain ⟨point, _, differs⟩ := Option.map_eq_some_iff.mp same
            cases differs
        · rcases carries with same | same
          · cases same
          · cases same

namespace State

open ScreenCall

variable {url : List UInt8}

/-- Showing the keyboard does not touch the address. -/
theorem fits_showOskCalls (state : State) : FitsAll url state.showOskCalls := by
  unfold showOskCalls
  split
  · trivial
  · exact ⟨trivial, trivial⟩

/-- Hiding the keyboard does not touch the address. -/
theorem fits_hideOskCalls (state : State) : FitsAll url state.hideOskCalls := by
  unfold hideOskCalls
  split
  · exact ⟨trivial, trivial⟩
  · trivial

/-- Toggling the keyboard does not touch the address. -/
theorem fits_toggleOskCalls (state : State) : FitsAll url state.toggleOskCalls := by
  unfold toggleOskCalls
  split
  · exact fits_hideOskCalls state
  · exact fits_showOskCalls state

/-- A change of layout does not touch the address. -/
theorem fits_switchModeCalls (mode : OskMode) (state : State) :
    FitsAll url (state.switchModeCalls mode) := by
  unfold switchModeCalls
  split
  · exact ⟨trivial, trivial⟩
  · trivial

/-- A guarded edit. -/
theorem fits_guarded {state : State} {edit : ScreenCall} {guard : Bool}
    (fits : guard = true → edit.Fits state.url) :
    FitsAll state.url (if guard then state.editCalls edit else []) := by
  cases guard with
  | true => exact ⟨fits rfl, trivial, trivial, trivial⟩
  | false => trivial

/-- An operation with the release of its key. -/
theorem fits_released {calls : List ScreenCall} (fits : FitsAll url calls) (mode : OskMode)
    (key : OskKey) : FitsAll url (calls ++ [.oskKey mode key false]) :=
  fitsAll_append.mpr ⟨fits, trivial, trivial⟩

/-- A letter key fits: the test of the length leaves room for its bytes. -/
theorem fits_pressCharCalls {state : State} {key : OskKey}
    (positive : 0 < key.unicode state.mode) : FitsAll state.url (state.pressCharCalls key) := by
  apply fits_guarded
  intro guard
  have room := of_decide_eq_true (Bool.and_eq_true_iff.mp guard).2
  unfold urlSize at room
  exact ⟨positive, by omega⟩

/-- Whatever the key does to the address, its guard is enough. -/
theorem fits_pressKeyCalls {state : State} {key : OskKey}
    (positive : key.action = .char → 0 < key.unicode state.mode) :
    FitsAll state.url (state.pressKeyCalls key) := by
  unfold pressKeyCalls
  cases action : key.action with
  | hide => exact fits_hideOskCalls state
  | shift | symbols | lang => exact ⟨trivial, trivial⟩
  | clear =>
      apply fits_released
      unfold pressClearCalls
      split
      · exact ⟨trivial, trivial, trivial, trivial⟩
      · exact ⟨trivial, trivial⟩
  | backspace =>
      apply fits_released
      apply fits_guarded
      intro guard empty
      rw [empty] at guard
      exact absurd (Bool.and_eq_true_iff.mp guard).2 (by decide)
  | space =>
      apply fits_released
      apply fits_guarded
      intro guard
      have room := of_decide_eq_true (Bool.and_eq_true_iff.mp guard).2
      unfold urlSize at room
      exact ⟨List.all_iff_forall_prop.mp (by decide), show state.url.length + 1 < 1023 by omega⟩
  | enter =>
      apply fitsAll_append.mpr
      refine ⟨?_, fits_hideOskCalls state⟩
      split
      · exact ⟨trivial, trivial, trivial⟩
      · trivial
  | dotcom =>
      apply fits_released
      apply fits_guarded
      intro guard
      have room := of_decide_eq_true (Bool.and_eq_true_iff.mp guard).2
      unfold urlSize at room
      cases state.mode.lang with
      | english =>
          have free : ∀ byte ∈ ascii ".com", byte ≠ 0 := List.all_iff_forall_prop.mp (by decide)
          exact ⟨free, show state.url.length + 4 < 1023 by omega⟩
      | russian =>
          have free : ∀ byte ∈ ascii ".ru", byte ≠ 0 := List.all_iff_forall_prop.mp (by decide)
          exact ⟨free, show state.url.length + 3 < 1023 by omega⟩
  | char =>
      have fits := fits_pressCharCalls (positive action)
      dsimp only
      split
      · exact fitsAll_append.mpr ⟨fits, trivial, trivial⟩
      · exact fits_released fits state.mode key

/-- A touch of the keyboard: its keys are those of the layout. -/
theorem fits_handleOskTouchCalls {state : State} {current : Option OskMode}
    (agrees : state.Agrees current) (active : state.oskActive = true) (x y : Int) :
    FitsAll state.url (state.handleOskTouchCalls x y) := by
  unfold handleOskTouchCalls
  cases found : state.keys.find? fun key => key.contains x y with
  | none => trivial
  | some key =>
      have among := List.mem_of_find?_eq_some found
      rw [(agrees active).2] at among
      exact ⟨trivial, fits_pressKeyCalls (layout_positive state.mode key among)⟩

/-- What the end of a touch frame writes fits. -/
theorem fits_handleFrameCalls {state : State} {current : Option OskMode}
    (agrees : state.Agrees current) : FitsAll state.url state.handleFrameCalls := by
  unfold handleFrameCalls
  split
  · next active =>
    split
    · split
      · exact fits_handleOskTouchCalls agrees active _ _
      · trivial
    · split
      · exact fits_hideOskCalls state
      · trivial
  · split
    · exact fits_showOskCalls _
    · split
      · exact fits_showOskCalls state
      · trivial

/-- What a line from the FIFO writes fits, as its length is tested first. -/
theorem fits_handleFifoCommandCalls {cmd : List UInt8} (nulFree : ∀ byte ∈ cmd, byte ≠ 0)
    (state : State) : FitsAll state.url (state.handleFifoCommandCalls cmd) := by
  unfold handleFifoCommandCalls
  cases line : fifoCommand cmd with
  | none => trivial
  | some command =>
      cases command with
      | inject | back | click => trivial
      | osk => exact fits_toggleOskCalls state
      | lang | shift | sym => exact fits_switchModeCalls _ state
      | focusUrl => exact fits_showOskCalls _
      | text payload =>
          dsimp only
          split
          · next room => exact ⟨⟨nulFree_payload nulFree (.inl line), room⟩, trivial, trivial⟩
          · trivial
      | url payload => exact ⟨nulFree_payload nulFree (.inr line), trivial, trivial⟩

/-- A key of the device does not touch the address. -/
theorem fits_handleKeyEventCalls (ev : InputEvent) (state : State) :
    FitsAll url (state.handleKeyEventCalls ev) := by
  unfold handleKeyEventCalls
  split
  · split
    · exact fits_hideOskCalls state
    · split
      · exact fits_toggleOskCalls state
      · split
        · exact fits_showOskCalls _
        · trivial
  · trivial

/-- A rectangle of the browser does not touch the address. -/
theorem fits_updateRectCalls (rect : Rect) (state : State) :
    FitsAll url (state.updateRectCalls rect) := by
  have keyboard : ∀ (url : List UInt8) (shown : Bool),
      FitsAll url (if shown then [.osk state.mode state.urlFocused] else []) := by
    intro url shown
    cases shown with
    | true => exact ⟨trivial, trivial⟩
    | false => trivial
  unfold updateRectCalls
  cases rect.clip with
  | none => trivial
  | some spans =>
      refine fitsAll_append.mpr ⟨?_, keyboard _ _⟩
      split
      · exact ⟨trivial, trivial⟩
      · trivial

/-- The calls of every step fit. -/
theorem fits_calls {state : State} {current : Option OskMode} (agrees : state.Agrees current)
    (label : Label) : FitsAll state.url (state.calls label.asString) := by
  cases label with
  | touch ev =>
      change FitsAll state.url (state.handleTouchEventCalls ev)
      unfold handleTouchEventCalls
      split
      · trivial
      · split
        · trivial
        · split
          · exact fits_handleFrameCalls agrees
          · trivial
  | key ev => exact fits_handleKeyEventCalls ev state
  | fifo cmd => exact fits_handleFifoCommandCalls (nulFree_cString cmd) state
  | showKeyboard => exact fits_showOskCalls _
  | browser step => exact ⟨trivial, fits_updateRectCalls step.rect state⟩

end State

/-! ## From the start on -/

/-- The address the shim starts with is held by its buffer. -/
theorem address_initialUrl : Address initialUrl (ascii "https://lite.duckduckgo.com") where
  holds := ⟨List.all_iff_forall_prop.mp (by decide), ⟨List.replicate 996 0, rfl⟩⟩
  closed := by decide +kernel

/-- The search ends, and stays in front of the NUL behind the arguments. -/
theorem findUrl_found {buf : Buffer 2048} {n : Nat} (closed : buf.load n = some 0) (p : Nat) :
    ∃ found, findUrl buf n p = some found ∧
      ∀ argument, found = some argument → ∀ byte ∈ argument, byte ≠ 0 := by
  induction p using findUrl.induct n with
  | case1 p inside ih =>
      have nul : 0 ∈ buf.bytes.drop p := by
        apply List.mem_of_getElem? (i := n - p)
        rw [List.getElem?_drop, Nat.add_sub_cancel' (Nat.le_of_lt inside)]
        exact closed
      have reads : buf.stringAt p = some (cString (buf.bytes.drop p)) := if_pos nul
      unfold findUrl
      rw [if_pos inside, reads, Option.bind_some]
      split
      · refine ⟨_, rfl, fun argument same => ?_⟩
        cases same
        exact nulFree_cString _
      · exact ih _
  | case2 p outside =>
      unfold findUrl
      rw [if_neg outside]
      exact ⟨none, rfl, fun argument same => by cases same⟩

/-- Whatever the command line, the array holds an address. -/
theorem address_initCurrentUrl (cmdline : Option (List UInt8)) (buf : Buffer 2048) :
    ∃ array url, initCurrentUrl cmdline buf = some array ∧ Address array url := by
  unfold initCurrentUrl
  cases cmdline with
  | none => exact ⟨_, _, rfl, address_initialUrl⟩
  | some bytes =>
      dsimp only
      split
      · exact ⟨_, _, rfl, address_initialUrl⟩
      · have cut : (bytes.take 2047).length = min bytes.length 2047 := by
          rw [List.length_take, Nat.min_comm]
        obtain ⟨read, reads, _⟩ := putBytes_of_fits 0 (bytes.take 2047) buf (by omega)
        obtain ⟨closed, closes, nul⟩ : ∃ closed, read.store (min bytes.length 2047) 0 =
            some closed ∧ closed.load (min bytes.length 2047) = some 0 := by
          have bound := read.length_bytes
          refine ⟨_, if_pos (by omega), ?_⟩
          exact List.getElem?_set_self (by omega)
        obtain ⟨found, finds, nulFree⟩ := findUrl_found nul 0
        cases found with
        | none =>
            exact ⟨_, _, Option.bind_eq_some_iff.mpr ⟨read, reads, Option.bind_eq_some_iff.mpr
              ⟨closed, closes, Option.bind_eq_some_iff.mpr ⟨_, finds, rfl⟩⟩⟩, address_initialUrl⟩
        | some argument =>
            obtain ⟨array, copies, holds, last⟩ := strncpy_holds (nulFree argument rfl)
              (by decide : 1023 < 1024) address_initialUrl.closed
            exact ⟨array, _, Option.bind_eq_some_iff.mpr ⟨read, reads, Option.bind_eq_some_iff.mpr
              ⟨closed, closes, Option.bind_eq_some_iff.mpr ⟨_, finds, copies⟩⟩⟩, holds, last⟩

/-- The address never leaves its array: whatever the command line and whatever happens, every
byte that is stored lies in the array of the address or in one of the arrays of the call, the
array ends in a NUL, and it holds the string of the model. -/
theorem address_in_bounds (font : Font) (cmdline : Option (List UInt8)) (buf : Buffer 2048)
    (stack : Nat → Locals) (labels : List (Label × (Nat → Locals))) :
    (urlMachine font cmdline buf stack).Always UrlSession.InBounds
      (urlMachine font cmdline buf stack).initial labels := by
  refine Machine.always_of_invariant
    (fun session => (∃ current, session.state.Agrees current) ∧
      ∃ array, session.array = some array ∧ Address array session.state.url)
    ?_ ?_ ?_ labels
  · rintro session ⟨_, array, same, address⟩
    exact ⟨array, same, address.closed, address.holds.string,
      Nat.le_of_lt_succ address.holds.length_lt⟩
  · rintro session ⟨label, stack⟩ ⟨⟨current, agrees⟩, array, same, address⟩
    obtain ⟨_, after⟩ := session.state.follows_step font label.asString current agrees
    refine ⟨⟨_, after⟩, ?_⟩
    obtain ⟨array', accesses, address'⟩ :=
      address.accessAll (State.fits_calls agrees label) stack
    rw [← State.url_step font label.asString session.state] at address'
    exact ⟨array', Option.bind_eq_some_iff.mpr ⟨array, same, accesses⟩, address'⟩
  · obtain ⟨array, url, starts, address⟩ := address_initCurrentUrl cmdline buf
    have fits : ScreenCall.FitsAll url [.urlBar] := ⟨trivial, trivial⟩
    obtain ⟨array', shows, address'⟩ := address.accessAll fits stack
    have text : ((initCurrentUrl cmdline buf).bind Buffer.string).getD [] = url := by
      rw [starts, Option.bind_some, address.holds.string]
      rfl
    refine ⟨⟨none, fun active => absurd active Bool.false_ne_true⟩, array',
      Option.bind_eq_some_iff.mpr ⟨array, starts, shows⟩, ?_⟩
    change Address array' (((initCurrentUrl cmdline buf).bind Buffer.string).getD [])
    rw [text]
    exact address'

end Nookobo.Shim
