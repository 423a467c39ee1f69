import Nookobo.Mtp.Containers
import Nookobo.Mtp.Sanitize

/-!
# MTP strings

An MTP string is a byte that counts its UTF-16 units, and the units with a NUL
among them. `poke_string` makes one of a C string and `unicode2charstring` reads
the units back. Both know only the units of the basic plane: a character above
it ends the string.
-/

namespace Nookobo.Mtp

open Nookobo.Text

variable {size : Nat}

/-! ## From bytes to units -/

/-- The loop of `utf8_size`, with a bound on its rounds: every round shifts one bit out. -/
def leadingOnes : Nat → UInt8 → Nat
  | 0, _ => 0
  | rounds + 1, c => if c &&& 0x80 ≠ 0 then leadingOnes rounds (c <<< 1) + 1 else 0

/-- The bytes that a first byte asks for, by its leading ones. -/
def utf8Size (c : UInt8) : Nat := if leadingOnes 8 c = 0 then 1 else leadingOnes 8 c

/-- `utf2unicode`: the unit at the start of a C string, and `ofs`. -/
def utf2unicode (pInput : List UInt8) : Nat × Nat :=
  let b1 := pInput.getD 0 0
  let b2 := pInput.getD 1 0
  let b3 := pInput.getD 2 0
  if utf8Size b1 = 1 then (b1.toNat, 1)
  else if utf8Size b1 = 2 then
    if b2 &&& 0xC0 ≠ 0x80 then (0, 0)
    else
      let unicode := ((b1 &&& 0x1F).toNat <<< 6 ||| (b2 &&& 0x3F).toNat) &&& 0xFF
      (unicode ||| ((b1 &&& 0x1F).toNat >>> 2) <<< 8, 2)
  else if utf8Size b1 = 3 then
    if b2 &&& 0xC0 ≠ 0x80 ∨ b3 &&& 0xC0 ≠ 0x80 then (0, 0)
    else
      let unicode := ((b2 &&& 0x3F).toNat <<< 6 ||| (b3 &&& 0x3F).toNat) &&& 0xFF
      (unicode ||| ((b1 &&& 0x0F).toNat <<< 4 ||| (b2 &&& 0x3F).toNat >>> 2) <<< 8, 3)
  else (0, 0)

/-- The loop of `char2unicodestring` for at most `rounds` rounds: `len`, or nothing when it
returns -1. Its `unicode_size` is `2 * len`. -/
def char2unicodeLoop (maxsize : Int) (unicodestrsize : Nat) :
    Nat → List UInt8 → Nat → Nat → Buffer size → Option (Option Nat × Buffer size)
  | 0, _, _, len, unicodestr => some (some len, unicodestr)
  | rounds + 1, str, index, len, unicodestr =>
      let (unicode, ofs) := utf2unicode str
      if index + 2 ≥ maxsize then some (none, unicodestr)
      else
        (unicodestr.putBytes index (littleEndian 2 unicode)).bind fun unicodestr =>
          if unicode ≠ 0 ∧ ofs ≠ 0 ∧ 2 * (len + 1) < unicodestrsize * 2 ∧ 2 * (len + 1) < 255 * 2
          then
            char2unicodeLoop maxsize unicodestrsize rounds (str.drop ofs) (index + 2) (len + 1)
              unicodestr
          else some (some (len + 1), unicodestr)

/-- `char2unicodestring`; its loop ends at 255 units. -/
def char2unicodestring (index : Nat) (maxsize : Int) (str : List UInt8) (unicodestrsize : Nat)
    (unicodestr : Buffer size) : Option (Int × Buffer size) :=
  (char2unicodeLoop maxsize unicodestrsize 255 str index 0 unicodestr).bind
    fun (len, unicodestr) =>
      match len with
      | none => some (-1, unicodestr)
      | some len =>
          if 2 * len ≥ 255 * 2 then
            if index + ((unicodestrsize * 2 : Nat) - 2 : Int) ≥ maxsize then some (-1, unicodestr)
            else
              (unicodestr.putBytes (index + (255 * 2 - 2)) [0, 0]).map fun unicodestr =>
                (255, unicodestr)
          else some (len, unicodestr)

/-- `poke_string` -/
def pokeString (index maxsize : Int) (str : List UInt8) (buffer : Buffer size) :
    Option (Int × Buffer size) :=
  if index < 0 then some (index, buffer)
  else if index + 1 ≥ maxsize then some (-1, buffer)
  else
    (buffer.store index.toNat 0).bind fun buffer =>
      if str = [] then some (index + 1, buffer)
      else
        (char2unicodestring (index.toNat + 1) maxsize str 255 buffer).bind fun (len, buffer) =>
          if len < 0 then some (-1, buffer)
          else
            (buffer.store index.toNat (UInt8.ofNat len.toNat)).map fun buffer =>
              (index + 1 + len * 2, buffer)

/-! ## From units to bytes -/

/-- `utf8_encode`; nothing for its error. -/
def utf8Encode (unicode : Nat) : List UInt8 :=
  if unicode ≤ 0x7F then [UInt8.ofNat unicode]
  else if unicode ≤ 0x07FF then
    [UInt8.ofNat (unicode >>> 6 &&& 0x1F ||| 0xC0), UInt8.ofNat (unicode &&& 0x3F ||| 0x80)]
  else if unicode ≤ 0xFFFF then
    [UInt8.ofNat (unicode >>> 12 &&& 0x0F ||| 0xE0), UInt8.ofNat (unicode >>> 6 &&& 0x3F ||| 0x80),
      UInt8.ofNat (unicode &&& 0x3F ||| 0x80)]
  else if unicode ≤ 0x10FFFF then
    [UInt8.ofNat (unicode >>> 18 &&& 0x07 ||| 0xF0), UInt8.ofNat (unicode >>> 12 &&& 0x3F ||| 0x80),
      UInt8.ofNat (unicode >>> 6 &&& 0x3F ||| 0x80), UInt8.ofNat (unicode &&& 0x3F ||| 0x80)]
  else []

/-- The loop of `unicode2charstring` on units that end with a NUL; `str` is what is stored so
far. The code is 1 when a character did not fit. -/
def unicode2charLoop (maxstrsize : Nat) (str : List UInt8) : List Nat → Int × List UInt8
  | [] => (0, str)
  | unit :: rest =>
      if unit = 0 then (0, str)
      else
        let chunk := if utf8Encode unit = [] then [0x3F] else utf8Encode unit
        if str.length + chunk.length < maxstrsize then
          unicode2charLoop maxstrsize (str ++ chunk) rest
        else (1, str)

/-- `unicode2charstring`: the code and the C string stored. -/
def unicode2charstring (unicodestr : List Nat) (maxstrsize : Nat) : Int × List UInt8 :=
  unicode2charLoop maxstrsize [] unicodestr

/-! ## The units of a string -/

/-- The units that `rounds` rounds of the loop write. -/
def unitsUpTo : Nat → List UInt8 → List Nat
  | 0, _ => []
  | rounds + 1, str =>
      (utf2unicode str).1 ::
        if (utf2unicode str).1 ≠ 0 ∧ (utf2unicode str).2 ≠ 0 then
          unitsUpTo rounds (str.drop (utf2unicode str).2)
        else []

/-- The units `poke_string` leaves: the last of 255 is made a NUL. -/
def unitsOf (str : List UInt8) : List Nat :=
  if (unitsUpTo 255 str).length = 255 then (unitsUpTo 255 str).take 254 ++ [0]
  else unitsUpTo 255 str

/-- The bytes of the MTP string. -/
def stringField (str : List UInt8) : List UInt8 :=
  if str = [] then [0]
  else UInt8.ofNat (unitsOf str).length :: (unitsOf str).flatMap (littleEndian 2)

/-- No more units than rounds. -/
theorem length_unitsUpTo_le (rounds : Nat) (str : List UInt8) :
    (unitsUpTo rounds str).length ≤ rounds := by
  induction rounds generalizing str with
  | zero => exact le_rfl
  | succ rounds ih =>
      rw [unitsUpTo, List.length_cons]
      split
      · exact Nat.succ_le_succ (ih _)
      · exact Nat.succ_le_succ (Nat.zero_le _)

/-- Each unit takes two bytes. -/
@[simp] theorem length_flatMap_littleEndian (units : List Nat) :
    (units.flatMap (littleEndian 2)).length = 2 * units.length := by
  induction units with
  | nil => rfl
  | cons unit rest ih =>
      rw [List.flatMap_cons, List.length_append, ih, length_littleEndian, List.length_cons]
      omega

/-- The loop writes exactly its units when they end before `maxsize`; otherwise it fails, and the
bytes in front are as they were. -/
theorem char2unicodeLoop_spec {maxsize : Int} (inside : maxsize ≤ size) (rounds : Nat)
    (str : List UInt8) (index len : Nat) (total : len + rounds = 255) (room : index < maxsize)
    (buffer : Buffer size) :
    ∃ after,
      if (index + 2 * (unitsUpTo rounds str).length : Int) < maxsize then
        char2unicodeLoop maxsize 255 rounds str index len buffer =
            some (some (len + (unitsUpTo rounds str).length), after) ∧
          Written buffer index ((unitsUpTo rounds str).flatMap (littleEndian 2)) after
      else
        char2unicodeLoop maxsize 255 rounds str index len buffer = some (none, after) ∧
          after.bytes.take index = buffer.bytes.take index := by
  induction rounds generalizing str index len buffer with
  | zero =>
      refine ⟨buffer, ?_⟩
      rw [if_pos (by simpa [unitsUpTo] using room)]
      exact ⟨rfl, Written.nil buffer index⟩
  | succ rounds ih =>
      rw [char2unicodeLoop, unitsUpTo]
      dsimp only
      by_cases full : index + 2 ≥ maxsize
      · refine ⟨buffer, ?_⟩
        rw [if_neg (by rw [List.length_cons]; omega), if_pos full]
        exact ⟨rfl, rfl⟩
      · rw [if_neg full]
        obtain ⟨between, stores, shape⟩ :=
          buffer.putBytes_of_fits index (littleEndian 2 (utf2unicode str).1)
            (by rw [length_littleEndian]; omega)
        have written : Written buffer index (littleEndian 2 (utf2unicode str).1) between := shape
        have front : between.bytes.take index = buffer.bytes.take index := by
          rw [shape, List.append_assoc, List.take_left' (by
            rw [List.length_take, buffer.length_bytes]; omega)]
        rw [stores, Option.bind_some]
        by_cases more : (utf2unicode str).1 ≠ 0 ∧ (utf2unicode str).2 ≠ 0
        · rw [if_pos more]
          cases rounds with
          | zero =>
              -- the 255th unit: the bound ends the loop
              refine ⟨between, ?_⟩
              rw [if_pos (by simp [unitsUpTo]; omega), if_neg (by omega)]
              exact ⟨rfl, by simpa [unitsUpTo] using written⟩
          | succ rounds =>
              obtain ⟨after, spec⟩ := ih (str.drop (utf2unicode str).2) (index + 2) (len + 1)
                (by omega) (by omega) between
              refine ⟨after, ?_⟩
              rw [List.length_cons]
              split at spec
              · next fits =>
                rw [if_pos (by omega), if_pos ⟨more.1, more.2, by omega, by omega⟩]
                refine ⟨?_, ?_⟩
                · rw [spec.1]
                  congr 3
                  omega
                · rw [List.flatMap_cons]
                  exact Written.trans (by rw [length_littleEndian]; omega) written spec.2
              · next beyond =>
                rw [if_neg (by omega), if_pos ⟨more.1, more.2, by omega, by omega⟩]
                refine ⟨spec.1, ?_⟩
                rw [← front]
                have taken := congrArg (List.take index) spec.2
                rwa [List.take_take, List.take_take, Nat.min_eq_left (by omega)] at taken
        · rw [if_neg more]
          refine ⟨between, ?_⟩
          rw [if_pos (by simp; omega), if_neg fun both => more ⟨both.1, both.2.1⟩]
          exact ⟨rfl, by simpa using written⟩

/-- The string has as many units as the loop makes of it. -/
@[simp] theorem length_unitsOf (str : List UInt8) :
    (unitsOf str).length = (unitsUpTo 255 str).length := by
  rw [unitsOf]
  split
  · next full => rw [List.length_append, List.length_take, full]; rfl
  · rfl

/-- No string has more than 255 units. -/
theorem length_unitsOf_le (str : List UInt8) : (unitsOf str).length ≤ 255 :=
  (length_unitsOf str).trans_le (length_unitsUpTo_le 255 str)

/-- The string is written whole where there is room, and refused where there is not. -/
theorem char2unicodestring_spec {maxsize : Int} (inside : maxsize ≤ size) (str : List UInt8)
    (index : Nat) (room : index < maxsize) (buffer : Buffer size) :
    ∃ after,
      if (index + 2 * (unitsOf str).length : Int) < maxsize then
        char2unicodestring index maxsize str 255 buffer =
            some (↑(unitsOf str).length, after) ∧
          Written buffer index ((unitsOf str).flatMap (littleEndian 2)) after
      else
        char2unicodestring index maxsize str 255 buffer = some (-1, after) ∧
          after.bytes.take index = buffer.bytes.take index := by
  obtain ⟨after, spec⟩ := char2unicodeLoop_spec inside 255 str index 0 rfl room buffer
  rw [length_unitsOf]
  split at spec
  · next fits =>
    obtain ⟨loop, written⟩ := spec
    rw [Nat.zero_add] at loop
    rw [char2unicodestring, loop, Option.bind_some]
    simp only [if_pos fits]
    by_cases full : (unitsUpTo 255 str).length = 255
    · -- the NUL goes over the last unit
      rw [full] at fits
      obtain ⟨last, stores, shape⟩ := after.putBytes_of_fits (index + (255 * 2 - 2)) [0, 0]
        (by simp only [List.length_cons, List.length_nil]; omega)
      refine ⟨last, ?_, ?_⟩
      · rw [full, if_pos (le_refl _), if_neg (by omega), stores]
        rfl
      · obtain ⟨front, final, units⟩ : ∃ front final, unitsUpTo 255 str = front ++ [final] := by
          obtain ⟨front, final, units⟩ := List.eq_nil_or_concat (unitsUpTo 255 str) |>.resolve_left
            (fun empty => by rw [empty] at full; cases full)
          exact ⟨front, final, by rw [units, List.concat_eq_append]⟩
        have count : front.length = 254 := by
          rw [units, List.length_append] at full
          exact Nat.succ.inj full
        rw [units, List.flatMap_append, ← List.append_nil (_ ++ _)] at written
        rw [unitsOf, if_pos full, units, ← count, List.take_left, List.flatMap_append,
          ← List.append_nil (_ ++ _)]
        refine Written.overwrite ?_ ?_ written ?_
        · simp only [length_flatMap_littleEndian, List.length_singleton]
          omega
        · simp
        · rw [length_flatMap_littleEndian, count]
          exact shape
    · have fewer := length_unitsUpTo_le 255 str
      refine ⟨after, ?_, ?_⟩
      · rw [if_neg (by omega)]
      · rw [unitsOf, if_neg full]
        exact written
  · next beyond =>
    refine ⟨after, ?_⟩
    rw [if_neg beyond, char2unicodestring, spec.1]
    exact ⟨rfl, spec.2⟩

/-- `poke_string` writes the MTP string of its argument when that ends before `maxsize`. Otherwise
it fails, and the bytes in front are as they were. It never leaves the array. -/
theorem pokeString_spec {maxsize : Int} (inside : maxsize ≤ size) (str : List UInt8)
    (offset : Nat) (buffer : Buffer size) :
    ∃ after,
      if (offset + (stringField str).length : Int) < maxsize then
        pokeString offset maxsize str buffer = some (↑(offset + (stringField str).length), after) ∧
          Written buffer offset (stringField str) after
      else
        pokeString offset maxsize str buffer = some (-1, after) ∧
          after.bytes.take offset = buffer.bytes.take offset := by
  rw [pokeString, if_neg (by omega), Int.toNat_natCast]
  by_cases full : (offset + 1 : Int) ≥ maxsize
  · refine ⟨buffer, ?_⟩
    have positive : 0 < (stringField str).length := by
      rw [stringField]
      split <;> simp
    rw [if_neg (by omega), if_pos full]
    exact ⟨rfl, rfl⟩
  · rw [if_neg full]
    obtain ⟨cleared, clears, counted⟩ := store_written buffer offset 0 (by omega)
    have front := counted.take_le le_rfl (by omega)
    rw [clears, Option.bind_some]
    by_cases empty : str = []
    · refine ⟨cleared, ?_⟩
      have field : stringField str = [0] := by rw [stringField, if_pos empty]
      rw [field, if_pos (by simp; omega), if_pos empty]
      exact ⟨rfl, counted⟩
    · have field : stringField str =
          [UInt8.ofNat (unitsOf str).length] ++ (unitsOf str).flatMap (littleEndian 2) := by
        rw [stringField, if_neg empty]
        rfl
      rw [if_neg empty, field, List.length_append, List.length_singleton,
        length_flatMap_littleEndian]
      obtain ⟨between, spec⟩ := char2unicodestring_spec inside str (offset + 1) (by omega) cleared
      split at spec
      · next fits =>
        obtain ⟨copies, units⟩ := spec
        obtain ⟨after, counts, sized⟩ :=
          store_written between offset (UInt8.ofNat (unitsOf str).length) (by omega)
        refine ⟨after, ?_⟩
        rw [if_pos (by omega), copies, Option.bind_some]
        dsimp only
        rw [if_neg (by omega), Int.toNat_natCast, counts, Option.map_some]
        refine ⟨?_, ?_⟩
        · congr 2
          omega
        · have whole := counted.trans (by simp; omega) units
          rw [← List.nil_append ([0] ++ _), ← List.append_assoc] at whole
          rw [← List.nil_append ([_] ++ _), ← List.append_assoc]
          exact Written.overwrite (by simp; omega) (by simp) whole sized
      · next beyond =>
        refine ⟨between, ?_⟩
        rw [if_neg (by omega), spec.1, Option.bind_some]
        dsimp only
        rw [if_pos (by omega)]
        refine ⟨rfl, ?_⟩
        have taken := congrArg (List.take offset) spec.2
        rw [List.take_take, List.take_take, Nat.min_eq_left (Nat.le_succ offset)] at taken
        exact taken.trans front

/-! ## The units of a text -/

/-- How many bytes each first byte asks for. -/
theorem utf8Size_table : ∀ value < 256, utf8Size (UInt8.ofNat value) =
    if value < 0xC0 then 1 else if value < 0xE0 then 2 else if value < 0xF0 then 3
    else if value < 0xF8 then 4 else if value < 0xFC then 5 else if value < 0xFE then 6
    else if value < 0xFF then 7 else 8 := by
  decide +kernel

/-- The lowest byte is the remainder. -/
theorem and_0xFF (value : Nat) : value &&& 0xFF = value % 256 :=
  Nat.and_two_pow_sub_one_eq_mod value 8

/-- The bits of a unit that two and three bytes carry. -/
theorem unit_bits {a b : Nat} (smallB : b < 64) :
    (a <<< 6 ||| b) &&& 0xFF ||| (a >>> 2) <<< 8 = a * 64 + b := by
  have low : (a * 64 + b) % 256 < 2 ^ 8 := Nat.mod_lt _ (by decide)
  rw [shiftLeft_or smallB, and_0xFF, Nat.or_comm, ← Nat.shiftLeft_add_eq_or_of_lt low,
    Nat.shiftLeft_eq, Nat.shiftRight_eq_div_pow]
  omega

/-- The unit that three bytes make. -/
theorem unit_bits' {a b c : Nat} (smallB : b < 64) (smallC : c < 64) :
    (b <<< 6 ||| c) &&& 0xFF ||| (a <<< 4 ||| b >>> 2) <<< 8 = a * 4096 + b * 64 + c := by
  have low : (b * 64 + c) % 256 < 2 ^ 8 := Nat.mod_lt _ (by decide)
  have four : b >>> 2 < 2 ^ 4 := by
    rw [Nat.shiftRight_eq_div_pow]
    omega
  rw [shiftLeft_or smallC, and_0xFF, Nat.or_comm, ← Nat.shiftLeft_add_eq_or_of_lt low,
    ← Nat.shiftLeft_add_eq_or_of_lt four, Nat.shiftLeft_eq, Nat.shiftLeft_eq,
    Nat.shiftRight_eq_div_pow]
  omega

/-- What the masks leave of a lead byte. -/
theorem lead_payload (value : Nat) (small : value < 32) :
    (UInt8.ofNat (value + 0xC0) &&& 0x1F).toNat = value ∧
      (value < 16 → (UInt8.ofNat (value + 0xE0) &&& 0x0F).toNat = value) := by
  have table : ∀ value < 32, (UInt8.ofNat (value + 0xC0) &&& 0x1F).toNat = value ∧
      (value < 16 → (UInt8.ofNat (value + 0xE0) &&& 0x0F).toNat = value) := by decide +kernel
  exact table value small

/-- A character of the basic plane is read as its unit. -/
theorem utf2unicode_char {char : Char} (basic : char.toNat < 0x10000) (rest : List UInt8) :
    utf2unicode (String.utf8EncodeChar char ++ rest) =
      (char.toNat, (String.utf8EncodeChar char).length) := by
  have valid : char.toNat.isValidChar := char.valid
  rcases utf8EncodeChar_cases char with ⟨small, single⟩ | ⟨long, -⟩
  · have one : utf8Size (UInt8.ofNat char.toNat) = 1 := by
      rw [utf8Size_table _ (by omega), if_pos (by omega)]
    rw [single, utf2unicode]
    simp only [List.cons_append, List.nil_append, List.getD_cons_zero, one, if_true,
      UInt8.toNat_ofNat', List.length_singleton]
    rw [Nat.mod_eq_of_lt (by omega)]
  · have encodes := utf8EncodeChar_long valid long
    rw [Char.ofNat_toNat] at encodes
    rw [encodes, utf2unicode]
    by_cases two : char.toNat < 0x800
    · have lead := utf8Size_table (char.toNat / 64 + 0xC0) (by omega)
      rw [if_neg (by omega), if_pos (by omega)] at lead
      obtain ⟨marked, payload⟩ := continuation_spec (Nat.mod_lt char.toNat (by decide : 0 < 64))
      have upper := (lead_payload (char.toNat / 64) (by omega)).1
      simp only [if_pos two, List.map_cons, List.map_nil, List.cons_append, List.nil_append,
        List.getD_cons_zero, List.getD_cons_succ, lead, marked, payload, upper,
        List.length_cons, List.length_nil]
      rw [if_neg (by decide), if_pos trivial, if_neg (by simp),
        unit_bits (Nat.mod_lt _ (by decide))]
      congr 1
      omega
    · have lead := utf8Size_table (char.toNat / 4096 + 0xE0) (by omega)
      rw [if_neg (by omega), if_neg (by omega), if_pos (by omega)] at lead
      obtain ⟨marked, payload⟩ :=
        continuation_spec (Nat.mod_lt (char.toNat / 64) (by decide : 0 < 64))
      obtain ⟨marked', payload'⟩ := continuation_spec (Nat.mod_lt char.toNat (by decide : 0 < 64))
      have upper := (lead_payload (char.toNat / 4096) (by omega)).2 (by omega)
      simp only [if_neg two, if_pos basic, List.map_cons, List.map_nil, List.cons_append,
        List.nil_append, List.getD_cons_zero, List.getD_cons_succ, lead, marked, payload, marked',
        payload', upper, List.length_cons, List.length_nil]
      rw [if_neg (by decide), if_neg (by decide), if_pos trivial, if_neg (by simp),
        unit_bits' (Nat.mod_lt _ (by decide)) (Nat.mod_lt _ (by decide))]
      congr 1
      omega

/-- A character above the basic plane is read as an end of the string. -/
theorem utf2unicode_astral {char : Char} (astral : ¬ char.toNat < 0x10000) (rest : List UInt8) :
    utf2unicode (String.utf8EncodeChar char ++ rest) = (0, 0) := by
  have valid : char.toNat.isValidChar := char.valid
  have top : char.toNat < 0x110000 := by rcases valid with low | ⟨-, high⟩ <;> omega
  have encodes := utf8EncodeChar_long valid (by omega)
  rw [Char.ofNat_toNat, if_neg (by omega), if_neg astral] at encodes
  have lead := utf8Size_table (char.toNat / 262144 + 0xF0) (by omega)
  rw [if_neg (by omega), if_neg (by omega), if_neg (by omega), if_pos (by omega)] at lead
  rw [encodes, utf2unicode]
  simp only [List.cons_append, List.getD_cons_zero, lead]
  rw [if_neg (by decide), if_neg (by decide), if_neg (by decide)]

/-- Without bytes there is no unit. -/
theorem utf2unicode_nil : utf2unicode [] = (0, 1) := by decide

/-- A character of the basic plane. -/
def isBasic (char : Char) : Bool := char.toNat < 0x10000

/-- The units of a text: those of its characters up to the first above the basic plane, and the
NUL. -/
theorem unitsUpTo_encoded (rounds : Nat) {text : List Char}
    (nulFree : ∀ char ∈ text, char.toNat ≠ 0) :
    unitsUpTo rounds (encoded text) =
      ((text.takeWhile isBasic).map Char.toNat ++ [0]).take rounds := by
  induction rounds generalizing text with
  | zero => rfl
  | succ rounds ih =>
      rw [unitsUpTo]
      cases text with
      | nil => simp [utf2unicode_nil]
      | cons char text =>
          rw [List.forall_mem_cons] at nulFree
          rw [encoded_cons]
          by_cases basic : char.toNat < 0x10000
          · have some : (String.utf8EncodeChar char).length ≠ 0 :=
              fun none => String.utf8EncodeChar_ne_nil (List.eq_nil_of_length_eq_zero none)
            rw [utf2unicode_char basic, if_pos ⟨nulFree.1, some⟩, List.drop_left, ih nulFree.2,
              List.takeWhile_cons_of_pos (by simpa [isBasic] using basic)]
            rfl
          · rw [utf2unicode_astral basic,
              List.takeWhile_cons_of_neg (by simpa [isBasic] using basic)]
            simp

/-- The characters of a text that its MTP string has room for. -/
def shown (text : List Char) : List Char := (text.takeWhile isBasic).take 254

/-- What is shown of a text is its beginning. -/
theorem shown_begins (text : List Char) : shown text <+: text :=
  (List.take_prefix _ _).trans (List.takeWhile_prefix _)

/-- Every character that is shown has one unit. -/
theorem basic_of_mem_shown {text : List Char} {char : Char} (member : char ∈ shown text) :
    char.toNat < 0x10000 := by
  have basic : isBasic char = true :=
    List.mem_takeWhile_imp ((List.take_prefix 254 (text.takeWhile isBasic)).sublist.mem member)
  exact of_decide_eq_true basic

/-- Everything is shown of a text of the basic plane that is not too long. -/
theorem shown_eq_self_iff {text : List Char} :
    shown text = text ↔ (∀ char ∈ text, isBasic char = true) ∧ text.length ≤ 254 := by
  constructor
  · intro same
    have length : text.length ≤ 254 := by
      rw [← same, shown, List.length_take]
      exact Nat.min_le_left _ _
    refine ⟨fun char member => ?_, length⟩
    rw [← same] at member
    exact decide_eq_true (basic_of_mem_shown member)
  · rintro ⟨basic, length⟩
    rw [shown, List.takeWhile_eq_self_iff.mpr basic, List.take_of_length_le length]

/-- What is shown of a text has no more bytes than all of it. -/
theorem length_encoded_shown_le (text : List Char) :
    (encoded (shown text)).length ≤ (encoded text).length := by
  obtain ⟨rest, whole⟩ := shown_begins text
  nth_rewrite 2 [← whole]
  rw [encoded_append, List.length_append]
  exact Nat.le_add_right _ _

/-- Where no byte is lost, no character is. -/
theorem shown_eq_self_of_length {text : List Char}
    (long : (encoded text).length ≤ (encoded (shown text)).length) : shown text = text := by
  obtain ⟨rest, whole⟩ := shown_begins text
  rw [← whole, encoded_append, List.length_append, whole] at long
  cases rest with
  | nil => rwa [List.append_nil] at whole
  | cons char rest =>
      rw [encoded_cons, List.length_append] at long
      have positive := List.length_pos_iff.mpr (String.utf8EncodeChar_ne_nil (c := char))
      omega

/-- The units of an encoded text are its characters, up to the first that needs two. -/
theorem unitsOf_encoded {text : List Char} (nulFree : ∀ char ∈ text, char.toNat ≠ 0) :
    unitsOf (encoded text) = (shown text).map Char.toNat ++ [0] := by
  rw [unitsOf, unitsUpTo_encoded 255 nulFree, shown]
  generalize text.takeWhile isBasic = basic
  rw [List.length_take, List.length_append, List.length_map, List.length_singleton, List.map_take]
  split
  · next full =>
    rw [List.take_take, List.take_append_of_le_length (by rw [List.length_map]; omega)]
    rfl
  · next fewer =>
    rw [List.take_of_length_le (by simp; omega), List.take_of_length_le (by simp; omega)]

/-! ## Reading the units back -/

/-- Six bits and the mark of their byte. -/
theorem mark_table : (∀ bits < 64, bits ||| 0x80 = bits + 0x80) ∧
    (∀ bits < 32, bits ||| 0xC0 = bits + 0xC0) ∧ (∀ bits < 16, bits ||| 0xE0 = bits + 0xE0) ∧
    ∀ bits < 8, bits ||| 0xF0 = bits + 0xF0 := by
  decide +kernel

/-- `utf8_encode` is the encoding of the character, where there is one. -/
theorem utf8Encode_char (char : Char) : utf8Encode char.toNat = String.utf8EncodeChar char := by
  have valid : char.toNat.isValidChar := char.valid
  have top : char.toNat < 0x110000 := by rcases valid with low | ⟨-, high⟩ <;> omega
  obtain ⟨six, five, four, three⟩ := mark_table
  have mask : ∀ value count : Nat, value &&& (2 ^ count - 1) = value % 2 ^ count :=
    fun value count => Nat.and_two_pow_sub_one_eq_mod value count
  have mask6 : ∀ value, value &&& 0x3F = value % 64 := fun value => mask value 6
  have mask5 : ∀ value, value &&& 0x1F = value % 32 := fun value => mask value 5
  have mask4 : ∀ value, value &&& 0x0F = value % 16 := fun value => mask value 4
  have mask3 : ∀ value, value &&& 0x07 = value % 8 := fun value => mask value 3
  have small : ∀ value count : Nat, 0 < count → value % count < count :=
    fun value count => Nat.mod_lt value
  rcases utf8EncodeChar_cases char with ⟨low, single⟩ | ⟨long, -⟩
  · rw [single, utf8Encode, if_pos (by omega)]
  · have encodes := utf8EncodeChar_long valid long
    rw [Char.ofNat_toNat] at encodes
    rw [encodes, utf8Encode, if_neg (by omega)]
    simp only [mask6, mask5, mask4, mask3, Nat.shiftRight_eq_div_pow,
      six _ (small _ _ (by decide)), five _ (small _ _ (by decide)),
      four _ (small _ _ (by decide)), three _ (small _ _ (by decide))]
    by_cases two : char.toNat < 0x800
    · rw [if_pos (by omega), if_pos two,
        Nat.mod_eq_of_lt (a := char.toNat / 2 ^ 6) (b := 32) (by omega)]
      rfl
    · by_cases three : char.toNat < 0x10000
      · rw [if_neg (by omega), if_pos (by omega), if_neg two, if_pos three,
          Nat.mod_eq_of_lt (a := char.toNat / 2 ^ 12) (b := 16) (by omega)]
        rfl
      · rw [if_neg (by omega), if_neg (by omega), if_pos (by omega), if_neg two, if_neg three,
          Nat.mod_eq_of_lt (a := char.toNat / 2 ^ 18) (b := 8) (by omega)]
        rfl

/-- The units of a text are read back up to the NUL when its bytes fit. -/
theorem unicode2charLoop_text {maxstrsize : Nat} {text : List Char}
    (nulFree : ∀ char ∈ text, char.toNat ≠ 0) (str : List UInt8) (behind : List Nat)
    (fits : str.length + (encoded text).length < maxstrsize) :
    unicode2charLoop maxstrsize str (text.map Char.toNat ++ 0 :: behind) =
      (0, str ++ encoded text) := by
  induction text generalizing str with
  | nil => simp [unicode2charLoop]
  | cons char text ih =>
      rw [List.forall_mem_cons] at nulFree
      rw [encoded_cons, List.length_append] at fits
      rw [List.map_cons, List.cons_append, unicode2charLoop, if_neg nulFree.1, utf8Encode_char]
      dsimp only
      rw [if_neg String.utf8EncodeChar_ne_nil, if_pos (by omega),
        ih nulFree.2 _ (by rw [List.length_append]; omega), encoded_cons, List.append_assoc]

end Nookobo.Mtp
