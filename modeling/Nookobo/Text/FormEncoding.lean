import Mathlib.Data.List.Infix
import Mathlib.Data.List.TakeWhile

/-!
# Form encoding

`decode` is the decoding of a form value, `application/x-www-form-urlencoded`: `+` is a space, a
percent sign with two hexadecimal digits is a byte, everything else stands for itself. `Encodes`
says in how many ways a text may be encoded; `decode` inverts all of them.

A value is decoded to as many bytes as it has characters when it has no escape, and to fewer
otherwise. So a text that is sent as it is comes back only when it contains nothing that means
something to the decoder.
-/

namespace Nookobo.Text.Form

/-- The bytes with a meaning of their own. -/
def percent : UInt8 := 37
def plus : UInt8 := 43
def space : UInt8 := 32
def ampersand : UInt8 := 38
def hash : UInt8 := 35

/-- The value of a hexadecimal digit of either case. -/
def hexValue (byte : UInt8) : Option UInt8 :=
  if 48 ≤ byte && byte ≤ 57 then some (byte - 48)
  else if 65 ≤ byte && byte ≤ 70 then some (byte - 55)
  else if 97 ≤ byte && byte ≤ 102 then some (byte - 87)
  else none

/-- The byte two digits behind a percent sign stand for. -/
def escaped (mark high low : UInt8) : Option UInt8 :=
  if mark = percent then
    (hexValue high).bind fun high => (hexValue low).map fun low => 16 * high + low
  else none

/-- What a byte outside escapes stands for. -/
def plain (byte : UInt8) : UInt8 := if byte = plus then space else byte

/-- What a form-encoded value stands for: escapes, and plus signs for spaces. -/
def decode : List UInt8 → List UInt8
  | [] => []
  | mark :: high :: low :: rest =>
      match escaped mark high low with
      | some value => value :: decode rest
      | none => plain mark :: decode (high :: low :: rest)
  | byte :: rest => plain byte :: decode rest

/-- The value has no escape: `decode` takes its bytes one by one. -/
def Unescaped : List UInt8 → Prop
  | [] => True
  | mark :: high :: low :: rest => escaped mark high low = none ∧ Unescaped (high :: low :: rest)
  | _ :: rest => Unescaped rest

instance Unescaped.decidable : ∀ value, Decidable (Unescaped value)
  | [] => .isTrue trivial
  | [_] => .isTrue trivial
  | [_, _] => .isTrue trivial
  | _ :: high :: low :: rest =>
      have := Unescaped.decidable (high :: low :: rest)
      inferInstanceAs (Decidable (_ ∧ _))

/-! ## Round trips -/

/-- The value is one of the encodings of the text. -/
inductive Encodes : List UInt8 → List UInt8 → Prop where
  | nil : Encodes [] []
  | escape {byte high low : UInt8} {text value : List UInt8}
      (stands : escaped percent high low = some byte) (rest : Encodes text value) :
      Encodes (byte :: text) (percent :: high :: low :: value)
  | literal {byte : UInt8} {text value : List UInt8} (notPercent : byte ≠ percent)
      (notPlus : byte ≠ plus) (rest : Encodes text value) : Encodes (byte :: text) (byte :: value)
  | plus {text value : List UInt8} (rest : Encodes text value) :
      Encodes (space :: text) (plus :: value)

/-- An escape begins with a percent sign. -/
theorem escaped_of_ne {mark : UInt8} (notPercent : mark ≠ percent) (high low : UInt8) :
    escaped mark high low = none :=
  if_neg notPercent

/-- An escape in front is one byte. -/
theorem decode_escape {mark high low value : UInt8} (stands : escaped mark high low = some value)
    (rest : List UInt8) : decode (mark :: high :: low :: rest) = value :: decode rest := by
  rw [decode, stands]

/-- Nothing but a percent sign starts an escape. -/
theorem decode_of_ne {byte : UInt8} (notPercent : byte ≠ percent) (rest : List UInt8) :
    decode (byte :: rest) = plain byte :: decode rest := by
  match rest with
  | [] => rfl
  | [_] => rfl
  | high :: low :: rest => rw [decode, escaped_of_ne notPercent]

/-- Every encoding of a text is decoded to it. -/
theorem Encodes.decode {text value : List UInt8} (encodes : Encodes text value) :
    decode value = text := by
  induction encodes with
  | nil => rfl
  | escape stands _ ih => rw [decode_escape stands, ih]
  | literal notPercent notPlus _ ih =>
      rw [decode_of_ne notPercent, ih, plain, if_neg notPlus]
  | plus _ ih =>
      rw [decode_of_ne (by decide), ih]
      rfl

/-- A digit is not NUL. -/
theorem ne_zero_of_hexValue {byte value : UInt8} (digit : hexValue byte = some value) :
    byte ≠ 0 := by
  intro zero
  rw [zero] at digit
  cases digit

/-- An encoding of a text without NUL has none either. -/
theorem Encodes.nulFree {text value : List UInt8} (encodes : Encodes text value)
    (nulFree : ∀ byte ∈ text, byte ≠ 0) : ∀ byte ∈ value, byte ≠ 0 := by
  induction encodes with
  | nil => exact nulFree
  | @escape byte high low text value stands _ ih =>
      simp only [escaped, if_true, Option.bind_eq_some_iff, Option.map_eq_some_iff] at stands
      obtain ⟨_, isHigh, _, isLow, _⟩ := stands
      have later := ih fun other member => nulFree other (List.mem_cons_of_mem _ member)
      simp only [List.forall_mem_cons]
      exact ⟨by decide, ne_zero_of_hexValue isHigh, ne_zero_of_hexValue isLow, later⟩
  | literal _ _ _ ih =>
      rw [List.forall_mem_cons] at nulFree ⊢
      exact ⟨nulFree.1, ih nulFree.2⟩
  | plus _ ih =>
      rw [List.forall_mem_cons] at nulFree ⊢
      exact ⟨by decide, ih nulFree.2⟩

/-! ## Values without escapes -/

/-- What is decoded is no longer than the value, and as long only without escapes. -/
theorem length_decode (value : List UInt8) :
    (decode value).length ≤ value.length ∧
      ((decode value).length = value.length ↔ Unescaped value) := by
  induction value using decode.induct with
  | case1 => exact ⟨Nat.le_refl _, by simp [decode, Unescaped]⟩
  | case2 mark high low rest byte stands ih =>
      obtain ⟨bound, _⟩ := ih
      rw [decode_escape stands]
      simp only [List.length_cons, Unescaped, stands]
      refine ⟨by omega, ⟨fun same => by omega, fun none => ?_⟩⟩
      cases none.1
  | case3 mark high low rest none ih =>
      obtain ⟨bound, exact⟩ := ih
      rw [decode, none]
      simp only [List.length_cons, Unescaped, none, true_and] at bound exact ⊢
      rw [← exact]
      omega
  | case4 byte rest short ih =>
      obtain ⟨bound, exact⟩ := ih
      match rest, short with
      | [], _ => exact ⟨Nat.le_refl _, by simp [decode, Unescaped]⟩
      | [_], _ => exact ⟨Nat.le_refl _, by simp [decode, Unescaped]⟩
      | high :: low :: rest, short => exact absurd rfl (short high low rest)

/-- Without escapes every byte is decoded alone. -/
theorem decode_eq_map {value : List UInt8} (unescaped : Unescaped value) :
    decode value = value.map plain := by
  induction value using decode.induct with
  | case1 => rfl
  | case2 mark high low rest byte stands ih =>
      rw [Unescaped, stands] at unescaped
      cases unescaped.1
  | case3 mark high low rest none ih =>
      rw [decode, none, List.map_cons, ← ih unescaped.2]
  | case4 byte rest short ih =>
      match rest, short with
      | [], _ => rfl
      | [_], _ => rfl
      | high :: low :: rest, short => exact absurd rfl (short high low rest)

/-- An escape stays one, and nothing else becomes one, where bytes that are neither percent signs
nor digits are replaced by such bytes. -/
theorem unescaped_map {replace : UInt8 → UInt8}
    (same : ∀ mark high low,
      escaped (replace mark) (replace high) (replace low) = escaped mark high low) :
    ∀ value, Unescaped (value.map replace) ↔ Unescaped value
  | [] => Iff.rfl
  | [_] => Iff.rfl
  | [_, _] => Iff.rfl
  | mark :: high :: low :: rest => by
      have later := unescaped_map same (high :: low :: rest)
      simp only [List.map_cons, Unescaped, same] at later ⊢
      rw [later]

/-! ## Parameters of an address -/

/-- The bytes around the parameters of an address. -/
def questionMark : UInt8 := 63
def equals : UInt8 := 61

/-- What stands between the question mark and the fragment. -/
def query (url : List UInt8) : List UInt8 :=
  ((url.takeWhile (· ≠ hash)).dropWhile (· ≠ questionMark)).drop 1

/-- The value of the first parameter with the name. -/
def parameter (name url : List UInt8) : Option (List UInt8) :=
  ((query url).splitOn ampersand).findSome? fun field =>
    if (name ++ [equals]).isPrefixOf field then some (decode (field.drop (name.length + 1)))
    else none

/-- The first piece ends at the first separator. -/
theorem splitOn_head (separator : UInt8) (bytes : List UInt8) :
    ∃ later, bytes.splitOn separator = bytes.takeWhile (· ≠ separator) :: later := by
  induction bytes with
  | nil => exact ⟨[], List.splitOn_nil separator⟩
  | cons byte rest ih =>
      obtain ⟨later, pieces⟩ := ih
      rw [List.splitOn_cons_eq_if_modifyHead, pieces]
      by_cases ends : byte = separator
      · refine ⟨rest.takeWhile (· ≠ separator) :: later, ?_⟩
        simp [ends]
      · refine ⟨later, ?_⟩
        simp [ends]

/-- The value of the parameter that a query starts with ends at the next parameter or the
fragment. -/
theorem parameter_of_first (base name value : List UInt8)
    (baseFree : ∀ byte ∈ base, byte ≠ hash ∧ byte ≠ questionMark)
    (nameFree : ∀ byte ∈ name, byte ≠ hash ∧ byte ≠ ampersand) :
    parameter name (base ++ questionMark :: (name ++ equals :: value)) =
      some (decode (value.takeWhile fun byte => byte ≠ hash && byte ≠ ampersand)) := by
  have queryEq : query (base ++ questionMark :: (name ++ equals :: value)) =
      name ++ equals :: value.takeWhile (· ≠ hash) := by
    unfold query
    rw [List.takeWhile_append_of_pos fun byte member => by simpa using (baseFree byte member).1,
      List.takeWhile_cons_of_pos (by decide),
      List.takeWhile_append_of_pos fun byte member => by simpa using (nameFree byte member).1,
      List.takeWhile_cons_of_pos (by decide),
      List.dropWhile_append_of_pos fun byte member => by simpa using (baseFree byte member).2,
      List.dropWhile_cons_of_neg (by decide)]
    rfl
  have both : (value.takeWhile (· ≠ hash)).takeWhile (· ≠ ampersand) =
      value.takeWhile fun byte => byte ≠ hash && byte ≠ ampersand := by
    rw [List.takeWhile_takeWhile]
    congr 1
    funext byte
    simp [Bool.and_comm]
  obtain ⟨later, pieces⟩ := splitOn_head ampersand (name ++ equals :: value.takeWhile (· ≠ hash))
  rw [List.takeWhile_append_of_pos fun byte member => by simpa using (nameFree byte member).2,
    List.takeWhile_cons_of_pos (by decide), both] at pieces
  unfold parameter
  have first : (name ++ [equals]).isPrefixOf
      (name ++ equals :: value.takeWhile fun byte => byte ≠ hash && byte ≠ ampersand) = true := by
    rw [List.isPrefixOf_iff_prefix]
    exact ⟨_, List.append_assoc _ _ _⟩
  rw [queryEq, pieces, List.findSome?_cons, if_pos first, List.drop_length_add_append]
  rfl

end Nookobo.Text.Form
