import Nookobo.Semantics.Run
import Nookobo.Text.Buffer
import Nookobo.Text.Numerals

/-!
# The Plato shim: its trace lines

A line of the trace is put together in a buffer of 384 bytes by `lb_str`, `lb_u` and `lb_i`. The
digits of a number are written into a scratch array of 12 bytes first. Accesses outside of the two
arrays have no result here, so every equation with a result says that the arrays are kept to.

The hexadecimal digits from ten on are written as `'a' + d`, not as `'a' + d - 10`:
`trace_formatter_exact` says for which numbers this does no harm.
-/

namespace Nookobo.Plato

open Nookobo.Semantics Nookobo.Text

/-! ## Numbers of the machine -/

/-- What a number is as an `int`. -/
def int32 (value : Int) : Int := (value + 0x80000000) % 0x100000000 - 0x80000000

/-- What an `int` is as a `size_t`. -/
def sizeT (value : Int) : Nat := (value % 0x100000000).toNat

/-- A string in the address space of a program of 32 bits. -/
structure CText where
  bytes : List UInt8
  nulFree : ∀ byte ∈ bytes, byte ≠ 0
  short : bytes.length < 0x100000000

/-! ## The buffer -/

/-- `lbuf`. -/
structure LBuf where
  b : Buffer 384
  n : Int

namespace LBuf

/-- The end of `lb_str` and `lb_u`: nothing if `n` bytes do not fit, else a `memcpy`. -/
def put (source : List UInt8) (n : Int) (l : LBuf) : Option LBuf :=
  if int32 (l.n + n) > 384 then some l
  else if source.length < sizeT n then none
  else
    (l.b.putBytes (sizeT l.n) (source.take (sizeT n))).map fun b => { b, n := int32 (l.n + n) }

/-- `lb_str`. -/
def lbStr (s : CText) (l : LBuf) : Option LBuf := l.put s.bytes (int32 s.bytes.length)

end LBuf

/-! ## Digits -/

/-- The loop of `lb_u` over the nibbles from `i = 4 * steps - 4` down. -/
def hexDigits (v : UInt32) : Nat → Bool → Nat → Buffer 12 → Option (Nat × Buffer 12)
  | 0, _, n, t => some (n, t)
  | steps + 1, started, n, t =>
      let d := (v >>> (4 * steps).toUInt32) &&& 0xf
      if !started && d == 0 && decide (0 < steps) then hexDigits v steps started n t
      else
        (t.store n (if d < 10 then 48 + d else 97 + d).toUInt8).bind
          (hexDigits v steps true (n + 1))

/-- `while (v)`. -/
def decDigits (v : UInt32) (n : Nat) (t : Buffer 12) : Option (Nat × Buffer 12) :=
  if v = 0 then some (n, t)
  else (t.store n (48 + v % 10).toUInt8).bind (decDigits (v / 10) (n + 1))
termination_by v.toNat
decreasing_by
  have positive : v.toNat ≠ 0 := by
    intro zero
    exact ‹v ≠ 0› (UInt32.toNat_inj.mp zero)
  rw [UInt32.toNat_div]
  exact Nat.div_lt_self (Nat.pos_of_ne_zero positive) (by decide)

/-- `char c = t[i]; t[i] = t[j]; t[j] = c;`. -/
def swap (i j : Nat) (t : Buffer 12) : Option (Buffer 12) :=
  (t.load i).bind fun c => (t.load j).bind fun d => (t.store i d).bind (Buffer.store j c)

/-- `for (; i < n / 2; i++)`. -/
def reverseFrom (n i : Nat) (t : Buffer 12) : Option (Buffer 12) :=
  if i < n / 2 then (swap i (n - 1 - i) t).bind (reverseFrom n (i + 1)) else some t
termination_by n / 2 - i

/-- The text of a number at the front of the scratch array, and its length. -/
def writeHexadecimal (v : UInt32) (t : Buffer 12) : Option (Nat × Buffer 12) :=
  ((t.store 0 48).bind (Buffer.store 1 120)).bind (hexDigits v 8 false 2)

/-- The decimal branch of `lb_u`: the digits from the low end, then turned around. -/
def writeDecimal (v : UInt32) (t : Buffer 12) : Option (Nat × Buffer 12) :=
  (if v = 0 then (t.store 0 48).bind (decDigits v 1) else decDigits v 0 t).bind fun written =>
    (reverseFrom written.1 0 written.2).map fun t => (written.1, t)

namespace LBuf

/-- `lb_u`, `t` being what its scratch array holds at first. -/
def lbU (v : UInt32) (hexa : Bool) (t : Buffer 12) (l : LBuf) : Option LBuf :=
  (if hexa then writeHexadecimal v t else writeDecimal v t).bind fun written =>
    l.put written.2.bytes written.1

/-- `"-"`. -/
def minus : CText := ⟨[45], List.all_iff_forall_prop.mp (by decide), by decide⟩

/-- `lb_i`. -/
def lbI (v : Int32) (t : Buffer 12) (l : LBuf) : Option LBuf :=
  if v < 0 then (l.lbStr minus).bind (lbU (-v).toUInt32 false t) else l.lbU v.toUInt32 false t

/-- `lb_flush`, and what it writes to the log if there is one. -/
def lbFlush (logging : Bool) (l : LBuf) : Option (LBuf × Option (List UInt8)) :=
  if logging && int32 (l.n + 1) < 384 then
    (l.b.putBytes (sizeT l.n) [lineFeed]).map fun b =>
      ({ b, n := int32 (l.n + 1) }, some (b.bytes.take (sizeT (int32 (l.n + 1)))))
  else some (l, none)

end LBuf

/-! ## What the digits are -/

/-- The lowest nibbles of a number, the highest of them first. -/
def nibbles (v : Nat) : Nat → List Nat
  | 0 => []
  | steps + 1 => v / 16 ^ steps % 16 :: nibbles v steps

/-- The same without leading zeros, but for the last nibble. -/
def significant (v : Nat) : Nat → List Nat
  | 0 => []
  | steps + 1 =>
      if v / 16 ^ steps % 16 = 0 ∧ 0 < steps then significant v steps else nibbles v (steps + 1)

/-- What `lb_u` writes for a nibble. -/
def hexByte (d : Nat) : UInt8 := (if d < 10 then 48 + d else 97 + d).toUInt8

/-- What `lb_u` is to append. -/
def unsignedText (v : UInt32) (hexa : Bool) : List UInt8 :=
  if hexa then [48, 120] ++ (significant v.toNat 8).map hexByte else numeral 10 v.toNat

/-- One more nibble is the lowest one. -/
theorem nibbles_concat (v steps : Nat) :
    nibbles v (steps + 1) = nibbles (v / 16) steps ++ [v % 16] := by
  induction steps with
  | zero => simp [nibbles]
  | succ steps ih =>
      have shifted : v / 16 ^ (steps + 1) = v / 16 / 16 ^ steps := by
        rw [Nat.div_div_eq_div_mul, Nat.pow_succ']
      rw [nibbles, ih, shifted]
      rfl

/-- There are as many nibbles as steps. -/
theorem length_nibbles (v steps : Nat) : (nibbles v steps).length = steps := by
  induction steps with
  | zero => rfl
  | succ steps ih => rw [nibbles, List.length_cons, ih]

/-- A number with that many nibbles is written with all of them. -/
theorem numeral_nibbles {v steps : Nat} (low : steps = 0 ∨ 16 ^ steps ≤ v)
    (high : v < 16 ^ (steps + 1)) :
    numeral 16 v = (nibbles v (steps + 1)).map digitByte := by
  induction steps generalizing v with
  | zero =>
      have small : v < 16 := by simpa using high
      rw [numeral_of_lt small]
      simp [nibbles, Nat.mod_eq_of_lt small]
  | succ steps ih =>
      have enough : 16 ^ (steps + 1) ≤ v := low.resolve_left (Nat.succ_ne_zero _)
      have positive : 0 < 16 ^ steps := Nat.pow_pos (by decide)
      rw [Nat.pow_succ] at enough
      rw [Nat.pow_succ] at high
      have large : 16 ≤ v := by omega
      rw [numeral_of_le (by decide) large, nibbles_concat, List.map_append,
        ih (.inr (by omega)) (by omega)]
      rfl

/-- The last nibble is never suppressed. -/
theorem significant_one (v : Nat) : significant v 1 = nibbles v 1 :=
  if_neg fun both => Nat.lt_irrefl 0 both.2

/-- The nibbles that are not suppressed are those of the number's text. -/
theorem numeral_significant {v steps : Nat} (high : v < 16 ^ (steps + 1)) :
    numeral 16 v = (significant v (steps + 1)).map digitByte := by
  induction steps with
  | zero =>
      rw [significant_one]
      exact numeral_nibbles (.inl rfl) high
  | succ steps ih =>
      unfold significant
      have positive : 0 < 16 ^ (steps + 1) := Nat.pow_pos (by decide)
      have top : v / 16 ^ (steps + 1) < 16 := by
        rw [Nat.div_lt_iff_lt_mul positive, Nat.mul_comm, ← Nat.pow_succ]
        exact high
      by_cases zero : v / 16 ^ (steps + 1) = 0
      · rw [if_pos ⟨by rw [zero], Nat.succ_pos _⟩]
        exact ih ((Nat.div_eq_zero_iff_lt positive).mp zero)
      · rw [if_neg (by rw [Nat.mod_eq_of_lt top]; exact fun both => zero both.1)]
        have enough : 16 ^ (steps + 1) ≤ v := by
          by_contra less
          exact zero ((Nat.div_eq_zero_iff_lt positive).mpr (Nat.lt_of_not_le less))
        exact numeral_nibbles (.inr enough) high

/-- The significant nibbles are among all of them. -/
theorem significant_sublist (v steps : Nat) :
    (significant v steps).Sublist (nibbles v steps) := by
  induction steps with
  | zero => exact List.Sublist.refl _
  | succ steps ih =>
      unfold significant
      split
      · exact ih.cons _
      · exact List.Sublist.refl _

/-- A nibble that is suppressed is zero. -/
theorem mem_significant {v steps d : Nat} (member : d ∈ nibbles v steps) (some : d ≠ 0) :
    d ∈ significant v steps := by
  induction steps with
  | zero => exact member
  | succ steps ih =>
      unfold significant
      split
      · next leading =>
        rcases List.mem_cons.mp member with same | later
        · exact absurd (same.trans leading.1) some
        · exact ih later
      · exact member

/-! ## Writing them -/

/-- Shift and mask give a nibble as division and remainder do. -/
theorem toNat_nibble (v : UInt32) {steps : Nat} (few : steps < 8) :
    ((v >>> (4 * steps).toUInt32) &&& 0xf).toNat = v.toNat / 16 ^ steps % 16 := by
  have shift : (4 * steps).toUInt32.toNat % 32 = 4 * steps := by
    have same : (4 * steps).toUInt32.toNat = 4 * steps % 0x100000000 := UInt32.toNat_ofNat
    rw [same]
    omega
  have power : 16 ^ steps = 2 ^ (4 * steps) := by
    rw [Nat.pow_mul]
  rw [UInt32.toNat_and, UInt32.toNat_shiftRight, shift, Nat.shiftRight_eq_div_pow, power]
  exact Nat.and_two_pow_sub_one_eq_mod _ 4

/-- The branch of the hexadecimal loop writes the digit's own character. -/
theorem hexByte_nibble {d : UInt32} (small : d.toNat < 16) :
    (if d < 10 then 48 + d else 97 + d).toUInt8 = hexByte d.toNat := by
  have all : ∀ value : Fin 16, (if value.val.toUInt32 < 10 then 48 + value.val.toUInt32
      else 97 + value.val.toUInt32).toUInt8 = hexByte value.val := by decide
  have same : d.toNat.toUInt32 = d := UInt32.ofNat_toNat
  have here := all ⟨d.toNat, small⟩
  dsimp only at here
  rw [same] at here
  exact here

/-- One round of the loop that writes its nibble. -/
theorem hexDigits_write (v : UInt32) {steps : Nat} (few : steps < 8) {started : Bool}
    (writes : started = true ∨ ¬ (v.toNat / 16 ^ steps % 16 = 0 ∧ 0 < steps)) (n : Nat)
    (t : Buffer 12) :
    hexDigits v (steps + 1) started n t =
      (t.store n (hexByte (v.toNat / 16 ^ steps % 16))).bind (hexDigits v steps true (n + 1)) := by
  have value := toNat_nibble v few
  generalize digit : (v >>> (4 * steps).toUInt32) &&& 0xf = d at value
  have written : (!started && d == 0 && decide (0 < steps)) = false := by
    rcases writes with already | nonzero
    · rw [already]
      rfl
    · rw [← value, ← UInt32.toNat_zero, UInt32.toNat_inj] at nonzero
      simp only [Bool.and_assoc, Bool.and_eq_false_imp, beq_iff_eq, decide_eq_false_iff_not]
      exact fun _ zero positive => nonzero ⟨zero, positive⟩
  rw [hexDigits, digit, ← value, ← hexByte_nibble (by rw [value]; exact Nat.mod_lt _ (by decide)),
    written]
  rfl

/-- The loop after its first digit. -/
theorem hexDigits_started (v : UInt32) {steps : Nat} {text : List UInt8} {t : Buffer 12}
    (few : steps ≤ 8) (held : text <+: t.bytes) (room : text.length + steps ≤ 12) :
    ∃ after, hexDigits v steps true text.length t = some (text.length + steps, after) ∧
      text ++ (nibbles v.toNat steps).map hexByte <+: after.bytes := by
  induction steps generalizing text t with
  | zero => exact ⟨t, rfl, by simpa [nibbles] using held⟩
  | succ steps ih =>
      let byte := hexByte (v.toNat / 16 ^ steps % 16)
      obtain ⟨next, stores, more⟩ := Buffer.store_next held (by omega) byte
      have longer : (text ++ [byte]).length = text.length + 1 := List.length_append
      obtain ⟨after, runs, holds⟩ := ih (by omega) more (by omega)
      rw [longer] at runs
      refine ⟨after, ?_, ?_⟩
      · rw [hexDigits_write v few (.inl rfl), stores, Option.bind_some, runs]
        congr 2
        omega
      · rw [List.append_assoc] at holds
        exact holds

/-- The loop before its first digit. -/
theorem hexDigits_leading (v : UInt32) {steps : Nat} {text : List UInt8} {t : Buffer 12}
    (few : steps ≤ 8) (held : text <+: t.bytes) (room : text.length + steps ≤ 12) :
    ∃ after, hexDigits v steps false text.length t =
        some (text.length + (significant v.toNat steps).length, after) ∧
      text ++ (significant v.toNat steps).map hexByte <+: after.bytes := by
  induction steps with
  | zero => exact ⟨t, rfl, by simpa [significant] using held⟩
  | succ steps ih =>
      unfold significant
      by_cases leading : v.toNat / 16 ^ steps % 16 = 0 ∧ 0 < steps
      · have value := toNat_nibble v few
        rw [leading.1, ← UInt32.toNat_zero, UInt32.toNat_inj] at value
        have skips : hexDigits v (steps + 1) false text.length t =
            hexDigits v steps false text.length t := by
          rw [hexDigits, value, decide_eq_true leading.2]
          rfl
        rw [if_pos leading, skips]
        exact ih (by omega) (by omega)
      · have same : hexDigits v (steps + 1) false text.length t =
            hexDigits v (steps + 1) true text.length t := by
          rw [hexDigits_write v few (.inr leading), hexDigits_write v few (.inl rfl)]
        rw [if_neg leading, same, length_nibbles]
        exact hexDigits_started v few held room

/-- No more nibbles are significant than there are. -/
theorem length_significant_le (v steps : Nat) : (significant v steps).length ≤ steps :=
  (significant_sublist v steps).length_le.trans (Nat.le_of_eq (length_nibbles v steps))

/-- The hexadecimal branch writes the significant nibbles to the front of its buffer. -/
theorem writeHexadecimal_eq (v : UInt32) (t : Buffer 12) :
    ∃ after, writeHexadecimal v t = some ((unsignedText v true).length, after) ∧
      unsignedText v true <+: after.bytes := by
  obtain ⟨first, stores, one⟩ := Buffer.store_next (List.nil_prefix : [] <+: t.bytes) (by decide) 48
  obtain ⟨second, again, two⟩ := Buffer.store_next one (by decide) 120
  obtain ⟨after, runs, holds⟩ := hexDigits_leading v (Nat.le_refl 8) two (by decide)
  refine ⟨after, ?_, holds⟩
  have length : (unsignedText v true).length = 2 + (significant v.toNat 8).length := by
    unfold unsignedText
    rw [if_pos rfl, List.length_append, List.length_map]
    rfl
  have opened : (t.store 0 48).bind (Buffer.store 1 120) = some second := by
    rw [List.length_nil] at stores
    rw [stores]
    exact again
  rw [length]
  unfold writeHexadecimal
  rw [opened]
  exact runs

/-- A decimal numeral from its low end: a digit, and the numeral of the rest. -/
theorem numeral_ten_step (v : Nat) :
    (numeral 10 v).reverse =
      digitByte (v % 10) :: if v / 10 = 0 then [] else (numeral 10 (v / 10)).reverse := by
  by_cases single : v < 10
  · rw [numeral_of_lt single, Nat.mod_eq_of_lt single, if_pos (Nat.div_eq_of_lt single)]
    rfl
  · rw [numeral_of_le (by decide) (Nat.le_of_not_lt single), List.reverse_append,
      if_neg (by omega)]
    rfl

/-- The character written for a decimal digit is that of the remainder by ten. -/
theorem decByte_eq (v : UInt32) : (48 + v % 10).toUInt8 = digitByte (v.toNat % 10) := by
  have all : ∀ digit : Fin 10, (48 + digit.val.toUInt32).toUInt8 = digitByte digit.val := by
    decide
  have same : (v % 10).toNat.toUInt32 = v % 10 := UInt32.ofNat_toNat
  have here := all ⟨v.toNat % 10, Nat.mod_lt _ (by decide)⟩
  rw [UInt32.toNat_mod] at same
  exact (congrArg (fun digit : UInt32 => (48 + digit).toUInt8) same).symm.trans here

/-- The digits from the last to the first. -/
theorem decDigits_eq (v : UInt32) {text : List UInt8} {t : Buffer 12} (goes : v ≠ 0)
    (held : text <+: t.bytes) (room : text.length + (numeral 10 v.toNat).length ≤ 12) :
    ∃ after, decDigits v text.length t =
        some (text.length + (numeral 10 v.toNat).length, after) ∧
      text ++ (numeral 10 v.toNat).reverse <+: after.bytes := by
  induction value : v.toNat using Nat.strongRecOn generalizing v text t with
  | _ number ih =>
      subst value
      have positive : v.toNat ≠ 0 := fun zero => goes (UInt32.toNat_inj.mp zero)
      have step := numeral_ten_step v.toNat
      have size := congrArg List.length step
      rw [List.length_reverse, List.length_cons] at size
      obtain ⟨next, stores, more⟩ := Buffer.store_next held (by omega) (digitByte (v.toNat % 10))
      have longer : (text ++ [digitByte (v.toNat % 10)]).length = text.length + 1 :=
        List.length_append
      have divided : (v / 10).toNat = v.toNat / 10 := UInt32.toNat_div v 10
      have unfolds : decDigits v text.length t = decDigits (v / 10) (text.length + 1) next := by
        rw [decDigits, if_neg goes, decByte_eq, stores]
        rfl
      rw [unfolds]
      by_cases last : v.toNat / 10 = 0
      · have ends : v / 10 = 0 := UInt32.toNat_inj.mp (divided.trans last)
        rw [if_pos last] at step size
        refine ⟨next, ?_, ?_⟩
        · rw [ends, decDigits, if_pos rfl, size]
          rfl
        · rw [step]
          exact more
      · have more' : v / 10 ≠ 0 := fun zero => last (divided ▸ congrArg UInt32.toNat zero)
        rw [if_neg last] at step size
        rw [List.length_reverse] at size
        obtain ⟨after, runs, holds⟩ := ih (v / 10).toNat
          (by rw [divided]; exact Nat.div_lt_self (Nat.pos_of_ne_zero positive) (by decide))
          (v / 10) more' more (by rw [divided]; omega) rfl
        rw [longer, divided] at runs
        refine ⟨after, ?_, ?_⟩
        · rw [runs]
          congr 2
          omega
        · rw [divided, List.append_assoc] at holds
          rw [step]
          exact holds

/-- One exchange of two bytes of the buffer. -/
theorem swap_eq {front inner back : List UInt8} {c d : UInt8} {t : Buffer 12}
    (shape : t.bytes = front ++ c :: (inner ++ d :: back)) {j : Nat}
    (position : j = front.length + (1 + inner.length)) :
    ∃ after, swap front.length j t = some after ∧
      after.bytes = front ++ d :: (inner ++ c :: back) := by
  have far : ∀ first : UInt8, front ++ first :: (inner ++ d :: back) =
      (front ++ first :: inner) ++ d :: back := by simp
  have place : ∀ first : UInt8, (front ++ first :: inner).length = j := by
    intro first
    rw [position, List.length_append, List.length_cons, Nat.add_comm 1]
  have first := Buffer.load_at shape
  have second := Buffer.load_at (shape.trans (far c))
  obtain ⟨half, stores, bytes⟩ := Buffer.store_at shape d
  obtain ⟨after, again, whole⟩ := Buffer.store_at (bytes.trans (far d)) c
  rw [place] at second again
  refine ⟨after, ?_, by rw [whole]; simp⟩
  unfold swap
  rw [first, Option.bind_some, second, Option.bind_some, stores]
  exact again

/-- The loop exchanges what is between two parts that are exchanged already. -/
theorem reverseFrom_eq {n : Nat} {front middle back rest : List UInt8} {t : Buffer 12}
    (shape : t.bytes = front ++ middle ++ back ++ rest) (same : back.length = front.length)
    (total : n = front.length + middle.length + back.length) :
    ∃ after, reverseFrom n front.length t = some after ∧
      after.bytes = front ++ middle.reverse ++ back ++ rest := by
  induction size : middle.length using Nat.strongRecOn generalizing front middle back t with
  | _ size' ih =>
      subst size
      rw [reverseFrom]
      by_cases more : front.length < n / 2
      · -- the two ends of the middle part change places
        have ends : ∃ c inner d, middle = c :: (inner ++ [d]) := by
          match middle with
          | [] => rw [List.length_nil] at total; omega
          | [_] => rw [List.length_singleton] at total; omega
          | c :: second :: tail =>
              exact ⟨c, (second :: tail).dropLast, (second :: tail).getLast (by simp),
                congrArg (c :: ·) (List.dropLast_concat_getLast _).symm⟩
        obtain ⟨c, inner, d, rfl⟩ := ends
        have outer : t.bytes = front ++ c :: (inner ++ d :: (back ++ rest)) := by
          rw [shape]
          simp
        have wide : (c :: (inner ++ [d])).length = inner.length + 2 := by simp
        rw [wide] at total
        obtain ⟨next, swaps, bytes⟩ := swap_eq outer (j := n - 1 - front.length) (by omega)
        have closer : next.bytes = (front ++ [d]) ++ inner ++ (c :: back) ++ rest := by
          rw [bytes]
          simp
        have grown : (front ++ [d]).length = front.length + 1 := List.length_append
        obtain ⟨after, runs, done⟩ := ih inner.length (by omega) closer
          (by rw [List.length_cons, grown, same]) (by rw [List.length_cons, grown]; omega) rfl
        rw [grown] at runs
        rw [if_pos more, swaps]
        exact ⟨after, runs, by rw [done]; simp⟩
      · have short : middle.length ≤ 1 := by omega
        have fixed : middle.reverse = middle := by
          match middle, short with
          | [], _ => rfl
          | [_], _ => rfl
        rw [if_neg more, fixed]
        exact ⟨t, rfl, shape⟩

/-- A number of 32 bits has at most ten digits. -/
theorem length_numeral_uInt32 (v : UInt32) : (numeral 10 v.toNat).length ≤ 10 := by
  have small := v.toNat_lt
  exact length_numeral_le (by decide) (by decide) (by omega)

/-- The decimal branch writes the numeral to the front of its buffer. -/
theorem writeDecimal_eq (v : UInt32) (t : Buffer 12) :
    ∃ after, writeDecimal v t = some ((unsignedText v false).length, after) ∧
      unsignedText v false <+: after.bytes := by
  have text : unsignedText v false = numeral 10 v.toNat := if_neg Bool.false_ne_true
  rw [text]
  have backwards : ∃ next,
      (if v = 0 then (t.store 0 48).bind (decDigits v 1) else decDigits v 0 t) =
        some ((numeral 10 v.toNat).length, next) ∧
      (numeral 10 v.toNat).reverse <+: next.bytes := by
    by_cases zero : v = 0
    · obtain ⟨next, stores, holds⟩ :=
        Buffer.store_next (List.nil_prefix : [] <+: t.bytes) (by decide) 48
      rw [List.length_nil] at stores
      rw [if_pos zero, stores, zero, Option.bind_some, decDigits, if_pos rfl]
      exact ⟨next, rfl, holds⟩
    · have room := length_numeral_uInt32 v
      obtain ⟨next, writes, holds⟩ := decDigits_eq v zero (List.nil_prefix : [] <+: t.bytes)
        (by rw [List.length_nil]; omega)
      rw [List.length_nil, Nat.zero_add] at writes
      rw [if_neg zero]
      exact ⟨next, writes, holds⟩
  obtain ⟨next, writes, rest, shape⟩ := backwards
  have whole : next.bytes = [] ++ (numeral 10 v.toNat).reverse ++ [] ++ rest := by
    rw [← shape]
    simp
  obtain ⟨after, reverses, bytes⟩ := reverseFrom_eq (n := (numeral 10 v.toNat).length) whole rfl
    (by simp)
  refine ⟨after, ?_, rest, ?_⟩
  · unfold writeDecimal
    rw [writes, Option.bind_some]
    exact congrArg (Option.map _) reverses
  · rw [bytes]
    simp

/-! ## What a call does -/

namespace LBuf

/-- The part of the buffer that is in use ends inside it. -/
structure Valid (l : LBuf) : Prop where
  nonneg : 0 ≤ l.n
  inside : l.n ≤ 384

/-- The text that was put together so far. -/
def contents (l : LBuf) : List UInt8 := l.b.bytes.take l.n.toNat

/-- A text is appended whole if there is room for it, and not at all otherwise. -/
def AllOrNothing (text : List UInt8) (l after : LBuf) : Prop :=
  if l.n + text.length ≤ 384 then
    after.contents = l.contents ++ text ∧ after.n = l.n + text.length
  else after = l

/-- An append keeps the buffer valid, whether it fits or not. -/
theorem AllOrNothing.valid {text : List UInt8} {l after : LBuf}
    (appends : AllOrNothing text l after) (valid : l.Valid) : after.Valid := by
  have nonneg := valid.nonneg
  unfold AllOrNothing at appends
  split at appends
  · next room => exact ⟨by omega, by omega⟩
  · rw [appends]
    exact valid

/-- A number of 31 bits is its own `int`. -/
theorem int32_of_small {value : Int} (low : 0 ≤ value) (high : value < 0x80000000) :
    int32 value = value := by
  unfold int32
  omega

/-- A number of 31 bits is its own `size_t`. -/
theorem sizeT_of_small {value : Int} (low : 0 ≤ value) (high : value < 0x80000000) :
    sizeT value = value.toNat := by
  unfold sizeT
  omega

/-- The copy of `lb_s` and `lb_u` appends all of the text or none of it. -/
theorem put_eq {source text : List UInt8} {l : LBuf} (valid : l.Valid) (held : text <+: source)
    (short : l.n + text.length < 0x80000000) :
    ∃ after, l.put source text.length = some after ∧ AllOrNothing text l after := by
  obtain ⟨nonneg, inside⟩ := valid
  unfold put AllOrNothing
  rw [int32_of_small (by omega) short]
  by_cases room : l.n + text.length ≤ 384
  · have size : sizeT text.length = text.length := sizeT_of_small (by omega) (by omega)
    have place : sizeT l.n = l.n.toNat := sizeT_of_small nonneg (by omega)
    obtain ⟨b, stores, bytes⟩ := Buffer.putBytes_of_fits l.n.toNat text l.b (by omega)
    have there := l.b.length_bytes
    have taken : source.take text.length = text := List.prefix_iff_eq_take.mp held |>.symm
    rw [if_neg (by omega), size, if_neg (by have := held.length_le; omega), taken, place, stores]
    refine ⟨_, rfl, ?_⟩
    rw [if_pos room]
    refine ⟨?_, rfl⟩
    unfold contents
    dsimp only
    have used : (l.b.bytes.take l.n.toNat ++ text).length = (l.n + text.length).toNat := by
      rw [List.length_append, List.length_take]
      omega
    rw [bytes, ← used, List.take_left]
  · rw [if_pos (by omega)]
    exact ⟨l, rfl, (if_neg room).symm ▸ rfl⟩

/-- A string is appended whole or not at all, unless its length is too much for an `int`. -/
theorem lbStr_eq {s : CText} {l : LBuf} (valid : l.Valid)
    (short : l.n + s.bytes.length < 0x80000000) :
    ∃ after, l.lbStr s = some after ∧ AllOrNothing s.bytes l after := by
  unfold lbStr
  rw [int32_of_small (by omega) (by have := valid.nonneg; omega)]
  exact put_eq valid (List.prefix_refl _) short

/-- No 32-bit number has more than ten digits. -/
theorem length_unsignedText (v : UInt32) (hexa : Bool) : (unsignedText v hexa).length ≤ 10 := by
  cases hexa with
  | true =>
      have few := length_significant_le v.toNat 8
      unfold unsignedText
      rw [if_pos rfl, List.length_append, List.length_map]
      exact Nat.add_le_add_left few 2
  | false => exact length_numeral_uInt32 v

/-- No number has an empty numeral. -/
theorem unsignedText_ne_nil (v : UInt32) (hexa : Bool) : unsignedText v hexa ≠ [] := by
  cases hexa with
  | true => exact List.cons_ne_nil _ _
  | false => exact numeral_ne_nil 10 v.toNat

/-- `lb_u` appends the numeral of its number, all of it or nothing. -/
theorem lbU_eq (v : UInt32) (hexa : Bool) (t : Buffer 12) {l : LBuf} (valid : l.Valid) :
    ∃ after, l.lbU v hexa t = some after ∧ AllOrNothing (unsignedText v hexa) l after := by
  have few := length_unsignedText v hexa
  have inside := valid.inside
  have written : ∃ next, (if hexa then writeHexadecimal v t else writeDecimal v t) =
      some ((unsignedText v hexa).length, next) ∧ unsignedText v hexa <+: next.bytes := by
    cases hexa with
    | true => exact writeHexadecimal_eq v t
    | false => exact writeDecimal_eq v t
  obtain ⟨next, writes, holds⟩ := written
  unfold lbU
  rw [writes]
  exact put_eq valid holds (by omega)

/-- A string that is too long makes the `memcpy` leave the buffer. -/
theorem lbStr_eq_none {s : CText} {l : LBuf} (valid : l.Valid)
    (long : 0x80000000 ≤ l.n + s.bytes.length) : l.lbStr s = none := by
  obtain ⟨nonneg, inside⟩ := valid
  have short := s.short
  have size : sizeT (int32 s.bytes.length) = s.bytes.length := by
    unfold sizeT int32
    omega
  have passes : ¬ int32 (l.n + int32 s.bytes.length) > 384 := by
    unfold int32
    omega
  unfold lbStr put
  rw [if_neg passes, size, if_neg (Nat.lt_irrefl _), List.take_length,
    Buffer.putBytes_eq_none (List.ne_nil_of_length_pos (by omega)) (by omega)]
  rfl

/-- What `lb_i` is to append. -/
def signedText (v : Int32) : List UInt8 :=
  if v < 0 then 45 :: unsignedText (-v).toUInt32 false else unsignedText v.toUInt32 false

/-- `lb_i` appends the signed numeral where it fits. -/
theorem lbI_eq (v : Int32) (t : Buffer 12) {l : LBuf} (valid : l.Valid) :
    ∃ after, l.lbI v t = some after ∧ after.Valid ∧
      (l.n + (signedText v).length ≤ 384 → AllOrNothing (signedText v) l after) := by
  unfold lbI signedText
  by_cases negative : v < 0
  · have inside := valid.inside
    obtain ⟨next, signs, sign⟩ := lbStr_eq (s := minus) valid
      (by have one : minus.bytes.length = 1 := rfl; omega)
    obtain ⟨after, writes, digits⟩ := lbU_eq (-v).toUInt32 false t (sign.valid valid)
    rw [if_pos negative, if_pos negative, signs]
    refine ⟨after, writes, digits.valid (sign.valid valid), fun room => ?_⟩
    rw [List.length_cons] at room
    unfold AllOrNothing at sign digits ⊢
    rw [if_pos (by have one : minus.bytes.length = 1 := rfl; omega)] at sign
    obtain ⟨contents, count⟩ := sign
    have one : (minus.bytes.length : Int) = 1 := rfl
    rw [if_pos (by omega)] at digits
    rw [if_pos (by rw [List.length_cons]; omega), List.length_cons]
    refine ⟨?_, by omega⟩
    rw [digits.1, contents, List.append_assoc]
    rfl
  · obtain ⟨after, writes, digits⟩ := lbU_eq v.toUInt32 false t valid
    rw [if_neg negative, if_neg negative]
    exact ⟨after, writes, digits.valid valid, fun _ => digits⟩

/-- `lb_flush` leaves a valid buffer. -/
theorem lbFlush_eq (logging : Bool) {l : LBuf} (valid : l.Valid) :
    ∃ after written, l.lbFlush logging = some (after, written) ∧ after.Valid := by
  obtain ⟨nonneg, inside⟩ := valid
  unfold lbFlush
  rw [int32_of_small (by omega) (by omega)]
  split
  · next room =>
      have place : sizeT l.n = l.n.toNat := sizeT_of_small nonneg (by omega)
      simp only [Bool.and_eq_true, decide_eq_true_eq] at room
      obtain ⟨b, stores, _⟩ := Buffer.putBytes_of_fits l.n.toNat [lineFeed] l.b
        (by rw [List.length_singleton]; omega)
      rw [place, stores]
      exact ⟨_, _, rfl, ⟨by dsimp only; omega, by dsimp only; omega⟩⟩
  · exact ⟨l, none, rfl, nonneg, inside⟩

end LBuf

/-! ## Any sequence of calls -/

/-- A call, with what its scratch array holds at first. -/
inductive Call where
  | str (s : CText)
  | unsigned (v : UInt32) (hexa : Bool) (t : Buffer 12)
  | signed (v : Int32) (t : Buffer 12)
  | flush (logging : Bool)

/-- What one call of the formatter does to the buffer. -/
def Call.run : Call → LBuf → Option LBuf
  | .str s, l => l.lbStr s
  | .unsigned v hexa t, l => l.lbU v hexa t
  | .signed v t, l => l.lbI v t
  | .flush logging, l => (l.lbFlush logging).map Prod.fst

/-- The calls on one buffer, until one leaves an array. -/
def traceMachine (fresh : Buffer 384) : Machine (Option LBuf) Call where
  initial := some { b := fresh, n := 0 }
  step state call := state.bind call.run

/-- The length of a string and what is in the buffer add up to an `int`. -/
def Short (state : Option LBuf) : Call → Prop
  | .str s => ∀ l ∈ state, l.n + s.bytes.length < 0x80000000
  | .unsigned _ _ _ | .signed _ _ | .flush _ => True

/-- Every call but that of `lb_str` keeps to the arrays. -/
theorem Call.run_eq (call : Call) {l : LBuf} (valid : l.Valid) (short : Short (some l) call) :
    ∃ after, call.run l = some after ∧ after.Valid := by
  cases call with
  | str s =>
      obtain ⟨after, runs, appends⟩ := LBuf.lbStr_eq valid (short l rfl)
      exact ⟨after, runs, appends.valid valid⟩
  | unsigned v hexa t =>
      obtain ⟨after, runs, appends⟩ := LBuf.lbU_eq v hexa t valid
      exact ⟨after, runs, appends.valid valid⟩
  | signed v t =>
      obtain ⟨after, runs, kept, _⟩ := LBuf.lbI_eq v t valid
      exact ⟨after, runs, kept⟩
  | flush logging =>
      obtain ⟨after, written, runs, kept⟩ := LBuf.lbFlush_eq logging valid
      exact ⟨after, congrArg (Option.map Prod.fst) runs, kept⟩

/-- A call fails exactly when it is not short. -/
theorem Call.run_eq_none_iff (call : Call) {l : LBuf} (valid : l.Valid) :
    call.run l = none ↔ ¬ Short (some l) call := by
  constructor
  · intro leaves short
    obtain ⟨after, runs, _⟩ := call.run_eq valid short
    rw [runs] at leaves
    cases leaves
  · intro long
    cases call with
    | str s =>
        refine LBuf.lbStr_eq_none valid (Int.not_lt.mp fun less => long ?_)
        rintro _ ⟨⟩
        exact less
    | unsigned | signed | flush => exact absurd trivial long

/-- The calls never leave an array exactly if no string is too long. -/
theorem calls_inside_iff (fresh : Buffer 384) (calls : List Call) :
    (traceMachine fresh).run (traceMachine fresh).initial calls ≠ none ↔
      (traceMachine fresh).StepsMeet Short (traceMachine fresh).initial calls := by
  refine Machine.not_spoiled_iff_stepsMeet (fun state => ∀ l ∈ state, l.Valid) (· = none) ?_ ?_
    calls ?_ (by rintro ⟨⟩)
  · intro state call valid
    cases state with
    | none => exact fun l member => by cases member
    | some l =>
        by_cases short : Short (some l) call
        · obtain ⟨after, runs, kept⟩ := call.run_eq (valid l rfl) short
          change ∀ after ∈ call.run l, after.Valid
          rw [runs]
          rintro _ ⟨⟩
          exact kept
        · change ∀ after ∈ call.run l, after.Valid
          rw [(call.run_eq_none_iff (valid l rfl)).mpr short]
          rintro _ ⟨⟩
  · intro state call valid
    cases state with
    | none => exact ⟨fun _ => .inl rfl, fun _ => rfl⟩
    | some l =>
        have decides := call.run_eq_none_iff (valid l rfl)
        exact decides.trans ⟨.inr, fun either => either.resolve_left (by rintro ⟨⟩)⟩
  · rintro _ ⟨⟩
    exact ⟨Int.le_refl 0, (by decide : (0 : Int) ≤ 384)⟩

/-! ## Reading the texts back -/

/-- A hexadecimal number: `0x` and digits, without leading zeros. -/
def readHexadecimal (text : List UInt8) : Option Nat :=
  match text with
  | 48 :: 120 :: digits =>
      if digits.head? = some 48 ∧ 1 < digits.length then none else readNumeral 16 digits
  | _ => none

/-- A number in the base that `lb_u` is told. -/
def readUnsigned (hexa : Bool) (text : List UInt8) : Option Nat :=
  if hexa then readHexadecimal text else readNumeral 10 text

/-- A number with a sign. -/
def readSigned (text : List UInt8) : Option Int :=
  match text with
  | 45 :: digits => (readNumeral 10 digits).map fun number : Nat => -(number : Int)
  | digits => (readNumeral 10 digits).map Int.ofNat

/-- Below ten the two forms of a digit are the same. -/
theorem hexByte_of_lt {d : Nat} (small : d < 10) : hexByte d = digitByte d := by
  have all : ∀ d : Fin 10, hexByte d.val = digitByte d.val := by decide
  exact all ⟨d, small⟩

/-- A hexadecimal digit from ten on does not read as a digit. -/
theorem digitValue_hexByte {d : Nat} (small : d < 16) (large : 10 ≤ d) :
    digitValue (hexByte d) = none := by
  have all : ∀ d : Fin 16, 10 ≤ d.val → digitValue (hexByte d.val) = none := by decide
  exact all ⟨d, small⟩ large

/-- No nibble but zero is written as `0`. -/
theorem hexByte_ne_zero {d : Nat} (small : d < 16) (some : d ≠ 0) : hexByte d ≠ 48 := by
  have all : ∀ d : Fin 16, d.val ≠ 0 → hexByte d.val ≠ 48 := by decide
  exact all ⟨d, small⟩ some

/-- A nibble is below sixteen. -/
theorem lt_of_mem_nibbles {v steps d : Nat} (member : d ∈ nibbles v steps) : d < 16 := by
  induction steps with
  | zero => cases member
  | succ steps ih =>
      rcases List.mem_cons.mp member with same | later
      · rw [same]
        exact Nat.mod_lt _ (by decide)
      · exact ih later

/-- The leading nibble is zero only where it is the only one. -/
theorem significant_head (v steps : Nat) :
    significant v (steps + 1) = [0] ∨ ∃ d rest, significant v (steps + 1) = d :: rest ∧ d ≠ 0 := by
  induction steps with
  | zero =>
      rw [significant_one, nibbles, nibbles]
      by_cases zero : v / 16 ^ 0 % 16 = 0
      · exact .inl (by rw [zero])
      · exact .inr ⟨_, [], rfl, zero⟩
  | succ steps ih =>
      rw [significant]
      by_cases leading : v / 16 ^ (steps + 1) % 16 = 0
      · rw [if_pos ⟨leading, Nat.succ_pos _⟩]
        exact ih
      · rw [if_neg fun both => leading both.1]
        exact .inr ⟨_, _, rfl, leading⟩

/-- A hexadecimal text is read back exactly if it has no digit from ten on. -/
theorem readHexadecimal_iff (v : UInt32) :
    readHexadecimal (unsignedText v true) = some v.toNat ↔ ∀ d ∈ nibbles v.toNat 8, d < 10 := by
  have text : unsignedText v true = 48 :: 120 :: (significant v.toNat 8).map hexByte := if_pos rfl
  have canonical : ¬ (((significant v.toNat 8).map hexByte).head? = some 48 ∧
      1 < ((significant v.toNat 8).map hexByte).length) := by
    rintro ⟨zero, long⟩
    rcases significant_head v.toNat 7 with single | ⟨d, rest, shape, nonzero⟩
    · rw [single] at long
      exact absurd long (by decide)
    · rw [shape, List.map_cons, List.head?_cons, Option.some_inj] at zero
      have member : d ∈ significant v.toNat 8 := by
        rw [shape]
        exact List.mem_cons_self
      exact hexByte_ne_zero (lt_of_mem_nibbles ((significant_sublist _ _).subset member)) nonzero
        zero
  have reads : readHexadecimal (unsignedText v true) =
      readNumeral 16 ((significant v.toNat 8).map hexByte) := by
    rw [text]
    exact if_neg canonical
  rw [reads]
  constructor
  · intro same d member
    by_contra large
    have there := mem_significant member (by omega)
    have bad := digitValue_hexByte (lt_of_mem_nibbles member) (Nat.le_of_not_lt large)
    rw [readNumeral_of_mem bad (List.mem_map_of_mem there)] at same
    cases same
  · intro small
    have high : v.toNat < 16 ^ 8 := v.toNat_lt
    have plain : (significant v.toNat 8).map hexByte = numeral 16 v.toNat := by
      rw [numeral_significant high]
      refine List.map_congr_left fun d member => ?_
      exact hexByte_of_lt (small d ((significant_sublist _ _).subset member))
    rw [plain]
    exact readNumeral_numeral (by decide) (by decide) _

/-- A numeral reads back as its number, in hexadecimal exactly when it has no letter digit. -/
theorem readUnsigned_iff (v : UInt32) (hexa : Bool) :
    readUnsigned hexa (unsignedText v hexa) = some v.toNat ↔
      (hexa = true → ∀ d ∈ nibbles v.toNat 8, d < 10) := by
  cases hexa with
  | true => exact (readHexadecimal_iff v).trans ⟨fun small _ => small, fun small => small rfl⟩
  | false =>
      have reads : readNumeral 10 (numeral 10 v.toNat) = some v.toNat :=
        readNumeral_numeral (by decide) (by decide) _
      exact ⟨fun _ impossible => (by cases impossible), fun _ => reads⟩

/-- A number that is not negative is the same signed and unsigned. -/
theorem toNat_toUInt32_of_nonneg {v : Int32} (nonneg : 0 ≤ v) :
    ((v.toUInt32.toNat : Nat) : Int) = v.toInt := by
  rw [Int32.toNat_toUInt32_of_le nonneg]
  exact Int.toNat_of_nonneg (Int32.le_iff_toInt_le.mp nonneg)

/-- A signed numeral reads back, but for the least number of all. -/
theorem readSigned_signedText {v : Int32} (proper : v ≠ Int32.minValue) :
    readSigned (LBuf.signedText v) = some v.toInt := by
  have reads : ∀ number, readNumeral 10 (numeral 10 number) = some number :=
    readNumeral_numeral (by decide) (by decide)
  have text : ∀ number : UInt32, unsignedText number false = numeral 10 number.toNat :=
    fun number => if_neg Bool.false_ne_true
  unfold LBuf.signedText
  by_cases negative : v < 0
  · have value : (((-v).toUInt32.toNat : Nat) : Int) = -v.toInt := by
      have lowest : Int32.minValue.toBitVec = BitVec.intMin 32 := by decide
      have opposite : (-v).toInt = -v.toInt := BitVec.toInt_neg_of_ne_intMin
        fun same => proper (Int32.toBitVec.inj (same.trans lowest.symm))
      rw [Int32.lt_iff_toInt_lt] at negative
      have nonneg : 0 ≤ -v := by
        rw [Int32.le_iff_toInt_le, opposite]
        change 0 ≤ -v.toInt
        have zero : (0 : Int32).toInt = 0 := rfl
        omega
      rw [toNat_toUInt32_of_nonneg nonneg, opposite]
    rw [if_pos negative, text]
    change (readNumeral 10 _).map (fun number : Nat => -(number : Int)) = _
    rw [reads, Option.map_some, value, Int.neg_neg]
  · have value := toNat_toUInt32_of_nonneg (Int32.not_lt.mp negative)
    have first : (numeral 10 v.toUInt32.toNat).head? ≠ some 45 := by
      intro minus
      have digit := isDigit_numeral v.toUInt32.toNat 45 (List.mem_of_mem_head? minus)
      exact absurd digit (by decide)
    rw [if_neg negative, text]
    unfold readSigned
    split
    · next digits shape =>
        rw [shape] at first
        exact absurd rfl first
    · rw [reads, Option.map_some]
      exact congrArg some value

/-- A buffer in which nothing is written yet. -/
def freshBuffer : LBuf := { b := Buffer.zeros 384, n := 0 }

/-- The buffer the tracer starts with is valid. -/
theorem valid_freshBuffer : freshBuffer.Valid := ⟨Int.le_refl 0, (by decide : (0 : Int) ≤ 384)⟩

/-- The text that is appended to an empty buffer is the text of the number. -/
theorem eq_unsignedText {v : UInt32} {hexa : Bool} {text : List UInt8}
    (appends : ∀ (t : Buffer 12) (l : LBuf), l.Valid →
      ∃ after, l.lbU v hexa t = some after ∧ LBuf.AllOrNothing text l after) :
    text = unsignedText v hexa := by
  obtain ⟨after, runs, appended⟩ := appends (Buffer.zeros 12) freshBuffer valid_freshBuffer
  obtain ⟨other, again, whole⟩ := LBuf.lbU_eq v hexa (Buffer.zeros 12) valid_freshBuffer
  obtain rfl : after = other := Option.some_inj.mp (runs.symm.trans again)
  have few := LBuf.length_unsignedText v hexa
  have empty : freshBuffer.n = 0 := rfl
  unfold LBuf.AllOrNothing at appended whole
  rw [if_pos (by omega)] at whole
  obtain ⟨contents, count⟩ := whole
  split at appended
  · exact List.append_cancel_left (appended.1.symm.trans contents)
  · rw [appended] at count
    exact absurd (List.length_eq_zero_iff.mp (by omega)) (LBuf.unsignedText_ne_nil v hexa)

/-- A number that `lb_u` appends is read back exactly if it has no hexadecimal digit from ten on;
one that `lb_i` appends always is. Each text is appended whole or not at all, and no sequence of
calls leaves the two arrays unless a string is too long for an `int`. -/
theorem trace_formatter_exact (v : UInt32) (hexa : Bool) (signed : Int32) (s : CText)
    (fresh : Buffer 384) (calls : List Call) :
    ((∃ text, readUnsigned hexa text = some v.toNat ∧
        ∀ (t : Buffer 12) (l : LBuf), l.Valid →
          ∃ after, l.lbU v hexa t = some after ∧ LBuf.AllOrNothing text l after) ↔
        (hexa = true → ∀ d ∈ nibbles v.toNat 8, d < 10)) ∧
      (signed ≠ Int32.minValue →
        ∃ text, readSigned text = some signed.toInt ∧
          ∀ (t : Buffer 12) (l : LBuf), l.Valid →
            ∃ after, l.lbI signed t = some after ∧
              (l.n + text.length ≤ 384 → LBuf.AllOrNothing text l after)) ∧
      (∀ (t : Buffer 12) (l : LBuf), l.Valid →
        ∃ after, l.lbU v hexa t = some after ∧
          LBuf.AllOrNothing (unsignedText v hexa) l after) ∧
      (∀ l : LBuf, l.Valid →
        ((∃ after, l.lbStr s = some after ∧ LBuf.AllOrNothing s.bytes l after) ↔
          l.n + s.bytes.length < 0x80000000)) ∧
      ((traceMachine fresh).run (traceMachine fresh).initial calls ≠ none ↔
        (traceMachine fresh).StepsMeet Short (traceMachine fresh).initial calls) := by
  refine ⟨?_, ?_, fun t l valid => LBuf.lbU_eq v hexa t valid, ?_, calls_inside_iff fresh calls⟩
  · constructor
    · rintro ⟨text, reads, appends⟩
      rw [eq_unsignedText appends] at reads
      exact (readUnsigned_iff v hexa).mp reads
    · intro small
      exact ⟨_, (readUnsigned_iff v hexa).mpr small, fun t l valid => LBuf.lbU_eq v hexa t valid⟩
  · intro proper
    refine ⟨LBuf.signedText signed, readSigned_signedText proper, fun t l valid => ?_⟩
    obtain ⟨after, runs, _, appends⟩ := LBuf.lbI_eq signed t valid
    exact ⟨after, runs, appends⟩
  · intro l valid
    constructor
    · rintro ⟨after, runs, _⟩
      by_contra long
      rw [LBuf.lbStr_eq_none valid (Int.not_lt.mp long)] at runs
      cases runs
    · exact LBuf.lbStr_eq valid

/-- Ten is written as `0xk`. -/
theorem ten_not_read_back :
    ¬ ∃ text, readUnsigned true text = some (10 : UInt32).toNat ∧
      ∀ (t : Buffer 12) (l : LBuf), l.Valid →
        ∃ after, l.lbU 10 true t = some after ∧ LBuf.AllOrNothing text l after := by
  rintro ⟨text, reads, appends⟩
  rw [eq_unsignedText appends] at reads
  exact absurd reads (by decide)

end Nookobo.Plato
