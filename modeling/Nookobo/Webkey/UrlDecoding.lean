import Nookobo.Text.Buffer
import Nookobo.Text.FormEncoding
import Nookobo.Webkey.Model

/-!
# `url_decode` on its buffers

`urlDecodeInto` is the function as it runs: it reads `src` byte by byte, the two digits of an
escape only after the tests before them, and stores in `dst`. It has a result exactly as long as
it stays inside both arrays, and the `src` here ends at its NUL.

What it stores is the form decoding of `src`, cut to the room there is.
-/

namespace Nookobo.Webkey

open Nookobo.Text

/-! ## The function -/

/-- `*src == '%' && isxdigit(src[1]) && isxdigit(src[2])`, and the byte the digits stand for. -/
def escapeAt {size : Nat} (src : Buffer size) (position : Nat) : Option (Option UInt8) :=
  (src.load position).bind fun mark =>
    if mark = percent then
      (src.load (position + 1)).bind fun high =>
        match hexDigit high with
        | none => some none
        | some high =>
            (src.load (position + 2)).map fun low => (hexDigit low).map fun low => 16 * high + low
    else some none

/-- The loop of `url_decode` with `src` at `position`, and the NUL behind it. -/
def urlDecodeFrom {size capacity : Nat} (src : Buffer size) (maxLen position d : Nat)
    (dst : Buffer capacity) : Option (Buffer capacity) :=
  (src.load position).bind fun byte =>
    if byte ≠ 0 ∧ d + 1 < maxLen then
      (escapeAt src position).bind fun
        | some value =>
            (dst.store d value).bind fun dst => urlDecodeFrom src maxLen (position + 3) (d + 1) dst
        | none =>
            (dst.store d (if byte = plus then space else byte)).bind fun dst =>
              urlDecodeFrom src maxLen (position + 1) (d + 1) dst
    else dst.store d 0
termination_by maxLen - d

/-- `url_decode`. -/
def urlDecodeInto {size capacity : Nat} (dst : Buffer capacity) (src : Buffer size)
    (maxLen : Nat) : Option (Buffer capacity) :=
  urlDecodeFrom src maxLen 0 0 dst

/-! ## What is read -/

section Read

variable {size : Nat} {src : Buffer size} {front rest : List UInt8}

/-- Reading at and behind a position. -/
theorem load_at (shape : src.bytes = front ++ (rest ++ [0])) (ahead : Nat) :
    src.load (front.length + ahead) = (rest ++ [0])[ahead]? := by
  unfold Buffer.load
  rw [shape, List.getElem?_append_right (Nat.le_add_right _ _), Nat.add_sub_cancel_left]

/-- The look-ahead stays before the NUL or stops at it. -/
theorem escapeAt_eq (shape : src.bytes = front ++ (rest ++ [0])) :
    escapeAt src front.length =
      some ((escape? rest).map fun (high, low, _) => 16 * high + low) := by
  have first := load_at shape 0
  have second := load_at shape 1
  have third := load_at shape 2
  have nul : hexDigit 0 = none := rfl
  unfold escapeAt
  rw [Nat.add_zero] at first
  rw [first, second, third]
  match rest with
  | [] => rfl
  | [mark] =>
      by_cases isMark : mark = percent
      · simp [isMark, nul, escape?]
      · simp [isMark, escape?]
  | [mark, high] =>
      by_cases isMark : mark = percent
      · cases digit : hexDigit high with
        | none => simp [isMark, digit, escape?]
        | some value => simp [isMark, digit, nul, escape?]
      · simp [isMark, escape?]
  | mark :: high :: low :: rest =>
      by_cases isMark : mark = percent
      · cases digit : hexDigit high with
        | none => simp [isMark, digit, escape?]
        | some value =>
            cases other : hexDigit low with
            | none => simp [isMark, digit, other, escape?]
            | some value => simp [isMark, digit, other, escape?]
      · simp [isMark, escape?]

/-- An escape is three bytes. -/
theorem escape?_eq_some {high low : UInt8} {after : List UInt8}
    (escape : escape? rest = some (high, low, after)) :
    ∃ first second third, rest = first :: second :: third :: after := by
  match rest with
  | [] => cases escape
  | [_] => cases escape
  | [_, _] => cases escape
  | first :: second :: third :: others =>
      unfold escape? at escape
      dsimp only at escape
      split at escape
      · split at escape
        · cases escape
          exact ⟨first, second, third, rfl⟩
        · cases escape
      · cases escape

end Read

/-! ## What is stored -/

section Stored

variable {size capacity : Nat} {src : Buffer size} {front rest : List UInt8}

/-- At the NUL, or without room for another byte, the loop stores a NUL and stops. -/
theorem urlDecodeFrom_stop {maxLen d : Nat} (shape : src.bytes = front ++ (rest ++ [0]))
    (dst : Buffer capacity) (stops : rest = [] ∨ maxLen ≤ d + 1) :
    urlDecodeFrom src maxLen front.length d dst = dst.putBytes d [0] := by
  have first := load_at shape 0
  rw [Nat.add_zero] at first
  have stored : dst.putBytes d [0] = dst.store d 0 := Option.bind_fun_some _
  rw [stored]
  unfold urlDecodeFrom
  rw [first]
  match rest, stops with
  | [], _ => simp
  | byte :: rest, .inr full => simp [Nat.not_lt.mpr full]

/-- One round: a byte is stored for an escape or for a single character. -/
theorem urlDecodeFrom_round {maxLen d : Nat} {byte : UInt8}
    (shape : src.bytes = front ++ (byte :: rest ++ [0])) (more : byte ≠ 0)
    (space : d + 1 < maxLen) (dst : Buffer capacity) :
    urlDecodeFrom src maxLen front.length d dst =
      match escape? (byte :: rest) with
      | some (high, low, _) =>
          (dst.store d (16 * high + low)).bind
            (urlDecodeFrom src maxLen (front.length + 3) (d + 1))
      | none =>
          (dst.store d (if byte = plus then Webkey.space else byte)).bind
            (urlDecodeFrom src maxLen (front.length + 1) (d + 1)) := by
  have first := load_at shape 0
  rw [Nat.add_zero] at first
  have ahead := escapeAt_eq shape
  rw [urlDecodeFrom, first, ahead]
  cases escape? (byte :: rest) with
  | none => simp [more, space]
  | some found => simp [more, space]

/-- The loop stores what is decoded, and a NUL. -/
theorem urlDecodeFrom_eq (maxLen : Nat) (shape : src.bytes = front ++ (rest ++ [0]))
    (nulFree : ∀ byte ∈ rest, byte ≠ 0) {room d : Nat} (counts : d + 1 + room = maxLen)
    (dst : Buffer capacity) :
    urlDecodeFrom src maxLen front.length d dst =
      dst.putBytes d (urlDecodeLoop room rest ++ [0]) := by
  induction room generalizing d front rest dst with
  | zero => exact urlDecodeFrom_stop shape dst (.inr (by omega))
  | succ room ih =>
      cases rest with
      | nil => exact urlDecodeFrom_stop shape dst (.inl rfl)
      | cons byte rest =>
          have more : byte ≠ 0 := nulFree byte List.mem_cons_self
          rw [urlDecodeFrom_round shape more (by omega), urlDecodeLoop, if_neg more]
          cases escape : escape? (byte :: rest) with
          | some found =>
              obtain ⟨high, low, after⟩ := found
              obtain ⟨first, second, third, same⟩ := escape?_eq_some escape
              rw [same] at shape nulFree
              have later : src.bytes = (front ++ [first, second, third]) ++ (after ++ [0]) := by
                rw [shape]
                simp
              have rounds := fun dst => ih later
                (fun other member => nulFree other (by simp [member])) (d := d + 1) (by omega) dst
              rw [List.length_append] at rounds
              exact congrArg (Option.bind (dst.store d (16 * high + low))) (funext rounds)
          | none =>
              have later : src.bytes = (front ++ [byte]) ++ (rest ++ [0]) := by
                rw [shape]
                simp
              have rounds := fun dst => ih later
                (fun other member => nulFree other (List.mem_cons_of_mem _ member)) (d := d + 1)
                (by omega) dst
              rw [List.length_append] at rounds
              dsimp only
              split
              · exact congrArg (Option.bind (dst.store d Webkey.space)) (funext rounds)
              · exact congrArg (Option.bind (dst.store d byte)) (funext rounds)

end Stored

/-! ## What is decoded -/

/-- Decoding looks for an escape first. -/
theorem decode_cons (byte : UInt8) (rest : List UInt8) :
    Form.decode (byte :: rest) =
      match escape? (byte :: rest) with
      | some (high, low, after) => (16 * high + low) :: Form.decode after
      | none => Form.plain byte :: Form.decode rest := by
  match rest with
  | [] => rfl
  | [_] => rfl
  | high :: low :: rest =>
      have same : ∀ digit, Form.hexValue digit = hexDigit digit := fun _ => rfl
      have mark : Form.percent = percent := rfl
      rw [Form.decode, Form.escaped, same, same, mark]
      unfold escape?
      dsimp only
      by_cases isMark : byte = percent
      · rw [if_pos isMark, if_pos isMark]
        cases hexDigit high with
        | none => rfl
        | some value => cases hexDigit low <;> rfl
      · rw [if_neg isMark, if_neg isMark]

/-- The form decoding, as far as there is room. -/
theorem urlDecodeLoop_eq_take {src : List UInt8} (nulFree : ∀ byte ∈ src, byte ≠ 0) (room : Nat) :
    urlDecodeLoop room src = (Form.decode src).take room := by
  induction room generalizing src with
  | zero => rfl
  | succ room ih =>
      cases src with
      | nil => rfl
      | cons byte rest =>
          rw [urlDecodeLoop, if_neg (nulFree byte List.mem_cons_self), decode_cons]
          cases escape : escape? (byte :: rest) with
          | some found =>
              obtain ⟨high, low, after⟩ := found
              obtain ⟨first, second, third, same⟩ := escape?_eq_some escape
              rw [same] at nulFree
              exact congrArg (_ :: ·) (ih fun other member => nulFree other (by simp [member]))
          | none =>
              have later := ih fun other member => nulFree other (List.mem_cons_of_mem _ member)
              dsimp only
              have plain : Form.plain byte = if byte = plus then space else byte := rfl
              rw [List.take_succ_cons, ← later, plain]
              split <;> rfl

/-- Whatever the string and the room: the function stays inside both arrays and puts a NUL behind
what it has decoded. -/
theorem urlDecodeInto_stores {src : List UInt8} (nulFree : ∀ byte ∈ src, byte ≠ 0) {maxLen : Nat}
    (positive : 1 ≤ maxLen) (dst : Buffer maxLen) :
    ∃ after, urlDecodeInto dst (terminated src) maxLen = some after ∧
      urlDecode src maxLen ++ [0] <+: after.bytes := by
  have shape : (terminated src).bytes = [] ++ (src ++ [0]) := rfl
  have decodes := urlDecodeFrom_eq maxLen shape nulFree (Nat.add_sub_cancel' positive) dst
  have bound : (urlDecodeLoop (maxLen - 1) src).length ≤ maxLen - 1 := by
    rw [urlDecodeLoop_eq_take nulFree]
    exact List.length_take_le _ _
  obtain ⟨after, stores, bytes⟩ := Buffer.putBytes_of_fits 0
    (urlDecodeLoop (maxLen - 1) src ++ [0]) dst (by rw [List.length_append]; simp; omega)
  refine ⟨after, decodes.trans stores, ?_⟩
  rw [bytes, List.take_zero, List.nil_append]
  exact List.prefix_append _ _

/-- `url_decode` returns every text from each of its encodings, with its NUL, when there is room;
and for any string and any room at all it stays inside both arrays and terminates what it has
written. -/
theorem urlDecode_correct :
    (∀ text src, (∀ byte ∈ text, byte ≠ 0) → Form.Encodes text src →
      ∀ maxLen, text.length < maxLen → ∀ dst : Buffer maxLen,
        ∃ after, urlDecodeInto dst (terminated src) maxLen = some after ∧ after.Holds text) ∧
    (∀ src : List UInt8, (∀ byte ∈ src, byte ≠ 0) → ∀ maxLen, 1 ≤ maxLen →
      ∀ dst : Buffer maxLen,
        ∃ after, urlDecodeInto dst (terminated src) maxLen = some after ∧
          urlDecode src maxLen ++ [0] <+: after.bytes) := by
  refine ⟨?_, fun src nulFree maxLen positive dst => urlDecodeInto_stores nulFree positive dst⟩
  intro text src nulFree encodes maxLen room dst
  have srcFree := encodes.nulFree nulFree
  obtain ⟨after, decodes, stored⟩ := urlDecodeInto_stores srcFree (Nat.zero_lt_of_lt room) dst
  have whole : urlDecode src maxLen = text := by
    unfold urlDecode
    rw [urlDecodeLoop_eq_take srcFree, encodes.decode, List.take_of_length_le (by omega)]
  rw [whole] at stored
  exact ⟨after, decodes, nulFree, stored⟩

/-- `a%2Bb+c` in a buffer of six bytes, and `%4` cut off in a buffer of three. -/
theorem urlDecode_correct_short :
    (∃ after, urlDecodeInto (.zeros 6) (terminated (ascii "a%2Bb+c")) 6 = some after ∧
        after.Holds (ascii "a+b c")) ∧
      ∃ after, urlDecodeInto (.zeros 3) (terminated (ascii "xy%4")) 3 = some after ∧
        ascii "xy" ++ [0] <+: after.bytes :=
  ⟨urlDecode_correct.1 (ascii "a+b c") (ascii "a%2Bb+c") (List.all_iff_forall_prop.mp (by decide))
      (.literal (by decide) (by decide) (.escape (by decide)
        (.literal (by decide) (by decide) (.plus (.literal (by decide) (by decide) .nil))))) 6
      (by decide) (.zeros 6),
    urlDecode_correct.2 (ascii "xy%4") (List.all_iff_forall_prop.mp (by decide)) 3 (by decide)
      (.zeros 3)⟩

end Nookobo.Webkey
