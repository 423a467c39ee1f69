import Mathlib.Data.List.GetD
import Nookobo.Text.Encoding
import Nookobo.Text.Utf8

/-!
# Walking through a C string with `utf8_next`

`utf8_next` lets the first byte of a character decide how many bytes to consume
and never asks whether they are there. `utf8NextAt` is the function on a memory,
with the addresses it reads, and `Walk` the loop
`while ((p = utf8_next(p, &cp))) body`, whatever its body does.

A string lies at the start of a memory with its NUL behind it and anything
behind that. `inside_iff` says that the loop keeps to the string exactly when the
string does not end inside a character, and `codePoints` is then what it finds.
Valid UTF-8 never ends so; a piece of it may.
-/

namespace Nookobo.Text

/-! ## The function on a memory -/

/-- What one call of `utf8_next` returns, `none` for NULL, and the addresses it reads. -/
structure Utf8Call where
  result : Option (Nat × Nat)
  reads : List Nat

/-- `utf8_next` on a pointer that is not NULL. -/
def utf8NextAt (memory : Nat → UInt8) (p : Nat) : Utf8Call :=
  let c := memory p
  let second := (memory (p + 1)).toNat % 64
  let third := (memory (p + 2)).toNat % 64
  if c = 0 then ⟨none, [p]⟩
  else if c < 0x80 then ⟨some (c.toNat, p + 1), [p]⟩
  else if c &&& 0xE0 = 0xC0 then ⟨some (c.toNat % 32 * 64 + second, p + 2), [p, p + 1]⟩
  else if c &&& 0xF0 = 0xE0 then
    ⟨some (c.toNat % 16 * 4096 + second * 64 + third, p + 3), [p, p + 1, p + 2]⟩
  else ⟨some (c.toNat, p + 1), [p]⟩

/-- The bytes a first byte asks for, itself included. -/
def sequenceLength (first : UInt8) : Nat :=
  if first < 0x80 then 1
  else if first &&& 0xE0 = 0xC0 then 2
  else if first &&& 0xF0 = 0xE0 then 3
  else 1

/-- Every first byte asks for one byte at least. -/
theorem sequenceLength_pos (first : UInt8) : 0 < sequenceLength first := by
  unfold sequenceLength
  split
  · decide
  · split
    · decide
    · split <;> decide

/-- At the NUL the function returns NULL and has read one byte. -/
theorem utf8NextAt_zero {memory : Nat → UInt8} {p : Nat} (nul : memory p = 0) :
    utf8NextAt memory p = ⟨none, [p]⟩ := by
  unfold utf8NextAt
  dsimp only
  rw [if_pos nul]

/-- Away from the NUL the pointer moves by the length of the sequence, and what is read lies
before the new pointer. -/
theorem utf8NextAt_of_ne_zero {memory : Nat → UInt8} {p : Nat} (more : memory p ≠ 0) :
    ∃ codePoint,
      (utf8NextAt memory p).result = some (codePoint, p + sequenceLength (memory p)) ∧
      ∀ address ∈ (utf8NextAt memory p).reads, address < p + sequenceLength (memory p) := by
  unfold utf8NextAt sequenceLength
  dsimp only
  rw [if_neg more]
  split
  · exact ⟨_, rfl, by simp⟩
  · split
    · exact ⟨_, rfl, by simp⟩
    · split
      · exact ⟨_, rfl, by simp⟩
      · exact ⟨_, rfl, by simp⟩

/-! ## The loop -/

/-- The loop after some rounds. -/
structure Walk (σ : Type) where
  pointer : Option Nat := some 0
  acc : σ
  /-- Rounds in which the body ran. -/
  steps : Nat := 0
  /-- Addresses read so far. -/
  reads : List Nat := []
  /-- Values the pointer has had, NULL apart. -/
  pointers : List Nat := [0]

namespace Walk

variable {σ : Type}

/-- The condition of the loop and, unless it is NULL, the body. -/
def round (memory : Nat → UInt8) (body : σ → Nat → σ) (walk : Walk σ) : Walk σ :=
  match walk.pointer with
  | none => walk
  | some p =>
      match (utf8NextAt memory p).result with
      | none => { walk with pointer := none, reads := walk.reads ++ (utf8NextAt memory p).reads }
      | some (codePoint, next) =>
          { pointer := some next
            acc := body walk.acc codePoint
            steps := walk.steps + 1
            reads := walk.reads ++ (utf8NextAt memory p).reads
            pointers := walk.pointers ++ [next] }

/-- Some rounds of the loop. -/
def run (memory : Nat → UInt8) (body : σ → Nat → σ) : Nat → Walk σ → Walk σ
  | 0, walk => walk
  | rounds + 1, walk => run memory body rounds (walk.round memory body)

/-- Nothing beyond the NUL at `length` has been read or pointed at, and the body has run at most
once for each byte. -/
def Within (length : Nat) (walk : Walk σ) : Prop :=
  (∀ address ∈ walk.reads, address ≤ length) ∧ (∀ p ∈ walk.pointers, p ≤ length) ∧
    walk.steps ≤ length

end Walk

/-- A string with its NUL at the start of a memory. -/
def stored (text : List UInt8) (beyond : Nat → UInt8) (address : Nat) : UInt8 :=
  (text ++ [0]).getD address (beyond address)

/-- The loop over a string keeps within it all the time, and it has ended after one round for
each byte and one for the NUL. -/
def Inside {σ : Type} (text : List UInt8) (beyond : Nat → UInt8) (body : σ → Nat → σ)
    (init : σ) : Prop :=
  (∀ rounds, (Walk.run (stored text beyond) body rounds { acc := init }).Within text.length) ∧
    (Walk.run (stored text beyond) body (text.length + 1) { acc := init }).pointer = none

/-- Read from a point with `missing` bytes of a character still to come, the string does not end
inside a character. -/
def EndsWhole : Nat → List UInt8 → Prop
  | missing, [] => missing = 0
  | 0, first :: rest => EndsWhole (sequenceLength first - 1) rest
  | missing + 1, _ :: rest => EndsWhole missing rest

instance EndsWhole.decidable : (missing : Nat) → (text : List UInt8) →
    Decidable (EndsWhole missing text)
  | 0, [] => .isTrue rfl
  | _ + 1, [] => .isFalse (Nat.succ_ne_zero _)
  | 0, first :: rest => EndsWhole.decidable (sequenceLength first - 1) rest
  | missing + 1, _ :: rest => EndsWhole.decidable missing rest

section Stored

variable {text : List UInt8} {beyond : Nat → UInt8}

/-- Inside the text the memory has its bytes. -/
theorem stored_of_lt {p : Nat} (inside : p < text.length) :
    stored text beyond p = text.get ⟨p, inside⟩ := by
  unfold stored
  rw [List.getD_append _ _ _ _ inside]
  exact List.getD_eq_getElem _ _ inside

/-- Behind the text stands its NUL. -/
theorem stored_length : stored text beyond text.length = 0 := by
  unfold stored
  rw [List.getD_append_right _ _ _ _ (Nat.le_refl _), Nat.sub_self]
  rfl

/-- Inside the text there is no NUL. -/
theorem stored_ne_zero (beyond : Nat → UInt8) (nulFree : ∀ byte ∈ text, byte ≠ 0) {p : Nat}
    (inside : p < text.length) : stored text beyond p ≠ 0 := by
  rw [stored_of_lt inside]
  exact nulFree _ (List.get_mem _ _)

/-- The bytes still missing have to be there. -/
theorem endsWhole_iff (missing : Nat) (text : List UInt8) :
    EndsWhole missing text ↔ missing ≤ text.length ∧ EndsWhole 0 (text.drop missing) := by
  induction text generalizing missing with
  | nil =>
      cases missing with
      | zero => exact ⟨fun _ => ⟨Nat.le_refl _, rfl⟩, fun _ => rfl⟩
      | succ missing =>
          refine ⟨fun torn => absurd torn (Nat.succ_ne_zero _), fun both => ?_⟩
          exact absurd both.1 (Nat.not_succ_le_zero _)
  | cons first rest ih =>
      cases missing with
      | zero => exact ⟨fun whole => ⟨Nat.zero_le _, whole⟩, fun both => both.2⟩
      | succ missing =>
          rw [List.length_cons, List.drop_succ_cons, Nat.succ_le_succ_iff]
          exact ih missing

/-- At a byte of the string: the sequence it starts fits, and the rest ends whole. -/
theorem endsWhole_drop (beyond : Nat → UInt8) {p : Nat} (inside : p < text.length) :
    EndsWhole 0 (text.drop p) ↔
      p + sequenceLength (stored text beyond p) ≤ text.length ∧
        EndsWhole 0 (text.drop (p + sequenceLength (stored text beyond p))) := by
  have split : text.drop p = text.get ⟨p, inside⟩ :: text.drop (p + 1) :=
    List.drop_eq_getElem_cons inside
  have positive := sequenceLength_pos (text.get ⟨p, inside⟩)
  have opens : EndsWhole 0 (text.get ⟨p, inside⟩ :: text.drop (p + 1)) ↔
      EndsWhole (sequenceLength (text.get ⟨p, inside⟩) - 1) (text.drop (p + 1)) := Iff.rfl
  rw [stored_of_lt inside, split, opens, endsWhole_iff, List.length_drop, List.drop_drop]
  have next : p + 1 + (sequenceLength (text.get ⟨p, inside⟩) - 1) =
      p + sequenceLength (text.get ⟨p, inside⟩) := by omega
  rw [next]
  refine and_congr_left fun _ => ?_
  omega

end Stored

/-! ## Strings that end whole -/

namespace Walk

variable {σ : Type} {text : List UInt8} {beyond : Nat → UInt8} {body : σ → Nat → σ}

/-- With NULL in the pointer a round does nothing. -/
theorem round_null {walk : Walk σ} (null : walk.pointer = none) (memory : Nat → UInt8) :
    walk.round memory body = walk := by
  unfold round
  rw [null]

/-- The last round: the pointer is at the NUL. -/
theorem round_nul {walk : Walk σ} (pointer : walk.pointer = some text.length) :
    walk.round (stored text beyond) body =
      { walk with pointer := none, reads := walk.reads ++ [text.length] } := by
  unfold round
  rw [pointer]
  dsimp only
  rw [utf8NextAt_zero stored_length]

/-- A round at a byte of the string. -/
theorem round_byte (beyond : Nat → UInt8) (body : σ → Nat → σ)
    (nulFree : ∀ byte ∈ text, byte ≠ 0) {walk : Walk σ} {p : Nat}
    (pointer : walk.pointer = some p) (inside : p < text.length) :
    ∃ codePoint, ∃ reads : List Nat,
      walk.round (stored text beyond) body =
          { pointer := some (p + sequenceLength (stored text beyond p))
            acc := body walk.acc codePoint
            steps := walk.steps + 1
            reads := walk.reads ++ reads
            pointers := walk.pointers ++ [p + sequenceLength (stored text beyond p)] } ∧
        (utf8NextAt (stored text beyond) p).result =
          some (codePoint, p + sequenceLength (stored text beyond p)) ∧
        ∀ address ∈ reads, address < p + sequenceLength (stored text beyond p) := by
  obtain ⟨codePoint, result, reads⟩ :=
    utf8NextAt_of_ne_zero (stored_ne_zero beyond nulFree inside)
  refine ⟨codePoint, (utf8NextAt (stored text beyond) p).reads, ?_, result, reads⟩
  unfold round
  rw [pointer]
  dsimp only
  rw [result]

/-- What holds after some rounds of a loop over a string that ends whole: every round has moved
the pointer, which stands at a character or at the NUL. -/
structure Kept (text : List UInt8) (rounds : Nat) (walk : Walk σ) : Prop where
  within : walk.Within text.length
  moved : ∀ p ∈ walk.pointer, rounds ≤ p ∧ walk.steps ≤ p ∧ p ≤ text.length ∧
    EndsWhole 0 (text.drop p)

/-- A round over a string that ends whole keeps within it. -/
theorem Kept.round {rounds : Nat} {walk : Walk σ} (kept : walk.Kept text rounds)
    (nulFree : ∀ byte ∈ text, byte ≠ 0) (beyond : Nat → UInt8) (body : σ → Nat → σ) :
    (walk.round (stored text beyond) body).Kept text (rounds + 1) := by
  obtain ⟨reads, pointers, steps⟩ := kept.within
  cases pointer : walk.pointer with
  | none =>
      rw [round_null pointer]
      exact ⟨kept.within, by simp [pointer]⟩
  | some p =>
      obtain ⟨moved, few, inside, whole⟩ := kept.moved p pointer
      rcases Nat.lt_or_eq_of_le inside with less | rfl
      · obtain ⟨codePoint, newReads, next, _, close⟩ :=
          round_byte beyond body nulFree pointer less
        have positive := sequenceLength_pos (stored text beyond p)
        obtain ⟨fits, rest⟩ := (endsWhole_drop beyond less).mp whole
        rw [next]
        refine ⟨⟨?_, ?_, ?_⟩, ?_⟩
        · intro address member
          rcases List.mem_append.mp member with old | new
          · exact reads address old
          · have bound := close address new
            omega
        · intro pointer member
          rcases List.mem_append.mp member with old | new
          · exact pointers pointer old
          · rw [List.mem_singleton.mp new]
            exact fits
        · change walk.steps + 1 ≤ text.length
          omega
        · rintro q ⟨rfl⟩
          refine ⟨?_, ?_, fits, rest⟩
          · omega
          · change walk.steps + 1 ≤ _
            omega
      · rw [round_nul pointer]
        refine ⟨⟨?_, pointers, steps⟩, by simp⟩
        intro address member
        rcases List.mem_append.mp member with old | new
        · exact reads address old
        · exact Nat.le_of_eq (List.mem_singleton.mp new)

/-- Any number of rounds keeps within it. -/
theorem Kept.run {rounds : Nat} {walk : Walk σ} (kept : walk.Kept text rounds)
    (nulFree : ∀ byte ∈ text, byte ≠ 0) (beyond : Nat → UInt8) (body : σ → Nat → σ)
    (more : Nat) :
    (Walk.run (stored text beyond) body more walk).Kept text (rounds + more) := by
  induction more generalizing rounds walk with
  | zero => exact kept
  | succ more ih =>
      have next := ih (kept.round nulFree beyond body)
      rwa [Nat.add_assoc, Nat.add_comm 1] at next

/-! ## Strings that do not -/

/-- A loop over a string that ends inside a character comes to point beyond the NUL. -/
theorem exists_beyond (beyond : Nat → UInt8) (body : σ → Nat → σ)
    (nulFree : ∀ byte ∈ text, byte ≠ 0) (left : Nat) {p : Nat} {walk : Walk σ}
    (pointer : walk.pointer = some p) (inside : p ≤ text.length) (near : text.length - p ≤ left)
    (torn : ¬ EndsWhole 0 (text.drop p)) :
    ∃ rounds, ∃ q ∈ (Walk.run (stored text beyond) body rounds walk).pointers,
      text.length < q := by
  have less : p < text.length := by
    by_contra atNul
    have here : text.drop p = [] := List.drop_eq_nil_of_le (Nat.not_lt.mp atNul)
    rw [here] at torn
    exact torn rfl
  induction left generalizing p walk with
  | zero => omega
  | succ left ih =>
      obtain ⟨codePoint, newReads, next, _, _⟩ := round_byte beyond body nulFree pointer less
      have positive := sequenceLength_pos (stored text beyond p)
      by_cases fits : p + sequenceLength (stored text beyond p) ≤ text.length
      · have stillTorn :
            ¬ EndsWhole 0 (text.drop (p + sequenceLength (stored text beyond p))) := by
          intro rest
          exact torn ((endsWhole_drop beyond less).mpr ⟨fits, rest⟩)
        have lessNext : p + sequenceLength (stored text beyond p) < text.length := by
          by_contra atNul
          have here : text.drop (p + sequenceLength (stored text beyond p)) = [] :=
            List.drop_eq_nil_of_le (Nat.not_lt.mp atNul)
          rw [here] at stillTorn
          exact stillTorn rfl
        have moved : (walk.round (stored text beyond) body).pointer =
            some (p + sequenceLength (stored text beyond p)) := by rw [next]
        obtain ⟨rounds, q, member, far⟩ := ih moved fits (by omega) stillTorn lessNext
        exact ⟨rounds + 1, q, member, far⟩
      · refine ⟨1, p + sequenceLength (stored text beyond p), ?_, Nat.lt_of_not_le fits⟩
        change _ ∈ (walk.round (stored text beyond) body).pointers
        rw [next]
        simp

end Walk

/-- The loop keeps to the string exactly when the string does not end inside a character. -/
theorem inside_iff {σ : Type} {text : List UInt8} (nulFree : ∀ byte ∈ text, byte ≠ 0)
    (beyond : Nat → UInt8) (body : σ → Nat → σ) (init : σ) :
    Inside text beyond body init ↔ EndsWhole 0 text := by
  constructor
  · rintro ⟨within, _⟩
    by_contra torn
    have start : ({ acc := init } : Walk σ).pointer = some 0 := rfl
    obtain ⟨rounds, q, member, far⟩ := Walk.exists_beyond beyond body nulFree text.length start
      (Nat.zero_le _) (Nat.sub_le _ _) torn
    have bound := (within rounds).2.1 q member
    omega
  · intro whole
    have start : Walk.Kept text 0 ({ acc := init } : Walk σ) := by
      refine ⟨⟨by simp, by simp, Nat.zero_le _⟩, ?_⟩
      rintro p ⟨rfl⟩
      exact ⟨Nat.le_refl _, Nat.le_refl _, Nat.zero_le _, whole⟩
    refine ⟨fun rounds => (start.run nulFree beyond body rounds).within, ?_⟩
    have last := start.run nulFree beyond body (text.length + 1)
    by_contra running
    obtain ⟨p, pointer⟩ := Option.ne_none_iff_exists'.mp running
    obtain ⟨moved, _, inside, _⟩ := last.moved p pointer
    omega

/-! ## What the loop finds -/

/-- Where the sequence fits, the call finds the code point the list decoder finds. -/
theorem utf8Next_drop {text : List UInt8} (beyond : Nat → UInt8)
    (nulFree : ∀ byte ∈ text, byte ≠ 0) {p : Nat} (inside : p < text.length)
    (fits : p + sequenceLength (stored text beyond p) ≤ text.length) :
    ∃ codePoint,
      (utf8NextAt (stored text beyond) p).result =
          some (codePoint, p + sequenceLength (stored text beyond p)) ∧
        utf8Next (text.drop p) =
          some (codePoint, text.drop (p + sequenceLength (stored text beyond p))) := by
  have more := stored_ne_zero beyond nulFree inside
  have split : text.drop p = stored text beyond p :: text.drop (p + 1) := by
    rw [stored_of_lt inside]
    exact List.drop_eq_getElem_cons inside
  have later : ∀ offset, p + 1 + offset < text.length →
      (text.drop (p + 1)).getD offset 0 = stored text beyond (p + 1 + offset) := by
    intro offset there
    have bound : offset < (text.drop (p + 1)).length := by
      rw [List.length_drop]
      omega
    rw [stored_of_lt there, List.getD_eq_getElem _ _ bound, List.getElem_drop]
    rfl
  have second : p + 1 < text.length →
      (text.drop (p + 1)).headD 0 = stored text beyond (p + 1) := by
    intro there
    rw [← later 0 there, List.headD_eq_head?_getD, List.getD_eq_getElem?_getD,
      List.head?_eq_getElem?]
  rw [split]
  unfold sequenceLength at fits ⊢
  unfold utf8NextAt utf8Next
  dsimp only
  rw [if_neg more, if_neg more]
  by_cases ascii : stored text beyond p < 0x80
  · rw [if_pos ascii, if_pos ascii]
    rw [if_pos ascii]
    exact ⟨_, rfl, rfl⟩
  · rw [if_neg ascii] at fits
    rw [if_neg ascii, if_neg ascii, if_neg ascii]
    by_cases two : stored text beyond p &&& 0xE0 = 0xC0
    · rw [if_pos two] at fits
      rw [if_pos two, if_pos two, if_pos two, second (by omega), List.drop_drop]
      exact ⟨_, rfl, rfl⟩
    · rw [if_neg two] at fits
      rw [if_neg two, if_neg two, if_neg two]
      by_cases three : stored text beyond p &&& 0xF0 = 0xE0
      · rw [if_pos three] at fits
        rw [if_pos three, if_pos three, if_pos three, second (by omega), later 1 (by omega),
          List.drop_drop]
        exact ⟨_, rfl, rfl⟩
      · rw [if_neg three, if_neg three, if_neg three]
        exact ⟨_, rfl, rfl⟩

namespace Walk

variable {σ : Type} {text : List UInt8}

/-- With NULL in the pointer the loop has ended. -/
theorem run_null (memory : Nat → UInt8) (body : σ → Nat → σ) {walk : Walk σ}
    (null : walk.pointer = none) (rounds : Nat) : Walk.run memory body rounds walk = walk := by
  induction rounds with
  | zero => rfl
  | succ rounds ih =>
      rw [Walk.run, round_null null]
      exact ih

/-- From a character of a string that ends whole on, the body sees the code points of the rest. -/
theorem run_acc (beyond : Nat → UInt8) (body : σ → Nat → σ) (nulFree : ∀ byte ∈ text, byte ≠ 0)
    (left : Nat) {p : Nat} {walk : Walk σ} (pointer : walk.pointer = some p)
    (inside : p ≤ text.length) (near : text.length - p ≤ left)
    (whole : EndsWhole 0 (text.drop p)) :
    (Walk.run (stored text beyond) body (left + 1) walk).acc =
      (codePointsUpTo left (text.drop p)).foldl body walk.acc := by
  have ended : ∀ rounds, p = text.length →
      (Walk.run (stored text beyond) body (rounds + 1) walk).acc = walk.acc := by
    rintro rounds rfl
    rw [Walk.run, round_nul pointer, run_null _ _ rfl]
  induction left generalizing p walk with
  | zero => exact ended 0 (by omega)
  | succ left ih =>
      rcases Nat.lt_or_eq_of_le inside with less | atNul
      · obtain ⟨fits, rest⟩ := (endsWhole_drop beyond less).mp whole
        obtain ⟨codePoint, found, decoded⟩ := utf8Next_drop beyond nulFree less fits
        obtain ⟨seen, newReads, next, result, _⟩ := round_byte beyond body nulFree pointer less
        have positive := sequenceLength_pos (stored text beyond p)
        have same : seen = codePoint := by
          rw [result] at found
          cases found
          rfl
        have moved : (walk.round (stored text beyond) body).pointer =
            some (p + sequenceLength (stored text beyond p)) := by rw [next]
        have later := ih moved fits (by omega) rest (by
          rintro rounds atEnd
          rw [Walk.run, round_nul (moved.trans (congrArg some atEnd)), run_null _ _ rfl])
        rw [codePointsUpTo, decoded, Walk.run, later, next, same]
        rfl
      · rw [ended _ atNul, atNul, List.drop_length]
        rfl

end Walk

/-- A loop that keeps to its string has seen the code points of the string when it ends. -/
theorem Inside.acc {σ : Type} {text : List UInt8} {beyond : Nat → UInt8} {body : σ → Nat → σ}
    {init : σ} (inside : Inside text beyond body init) (nulFree : ∀ byte ∈ text, byte ≠ 0) :
    (Walk.run (stored text beyond) body (text.length + 1) { acc := init }).acc =
      (codePoints text).foldl body init := by
  have whole := (inside_iff nulFree beyond body init).mp inside
  have start : ({ acc := init } : Walk σ).pointer = some 0 := rfl
  exact Walk.run_acc beyond body nulFree text.length start (Nat.zero_le _) (Nat.sub_le _ _) whole

/-! ## Valid UTF-8 -/

/-- The range of a first byte decides the length. -/
theorem sequenceLength_table :
    (∀ value < 0x40, sequenceLength (UInt8.ofNat (value + 0x80)) = 1) ∧
      (∀ value < 0x20, sequenceLength (UInt8.ofNat (value + 0xC0)) = 2) ∧
      (∀ value < 0x10, sequenceLength (UInt8.ofNat (value + 0xE0)) = 3) ∧
      (∀ value < 0x08, sequenceLength (UInt8.ofNat (value + 0xF0)) = 1) ∧
      ∀ value < 0x80, sequenceLength (UInt8.ofNat value) = 1 := by
  decide +kernel

/-- A text that ends whole, behind one that ends whole. -/
theorem endsWhole_append {first second : List UInt8} {missing : Nat}
    (whole : EndsWhole missing first) (rest : EndsWhole 0 second) :
    EndsWhole missing (first ++ second) := by
  induction first generalizing missing with
  | nil =>
      cases whole
      exact rest
  | cons byte first ih =>
      cases missing with
      | zero => exact ih whole
      | succ missing => exact ih whole

/-- An encoded character ends whole. -/
theorem endsWhole_utf8EncodeChar (char : Char) :
    EndsWhole 0 (String.utf8EncodeChar char) := by
  obtain ⟨continuation, two, three, four, one⟩ := sequenceLength_table
  have tail : ∀ value : Nat, sequenceLength (UInt8.ofNat (value % 0x40 + 0x80)) = 1 :=
    fun value => continuation _ (Nat.mod_lt _ (by decide))
  unfold String.utf8EncodeChar
  dsimp only
  split
  · next ascii =>
    unfold EndsWhole
    rw [one _ (Nat.lt_succ_of_le ascii)]
    rfl
  · split
    · unfold EndsWhole
      rw [two _ (Nat.mod_lt _ (by decide))]
      rfl
    · split
      · unfold EndsWhole
        rw [three _ (Nat.mod_lt _ (by decide))]
        rfl
      · unfold EndsWhole
        rw [four _ (Nat.mod_lt _ (by decide))]
        simp only [Nat.sub_self, EndsWhole, tail]

/-- Valid UTF-8 ends whole: four bytes are taken for four characters. -/
theorem endsWhole_encoded (text : List Char) : EndsWhole 0 (encoded text) := by
  induction text with
  | nil => rfl
  | cons char rest ih => exact endsWhole_append (endsWhole_utf8EncodeChar char) ih

/-! ## The code points of a text -/

/-- What the decoder sees in the first byte of two and of three. -/
theorem utf8Next_table :
    (∀ value < 0x20, UInt8.ofNat (value + 0xC0) ≠ 0 ∧ ¬ UInt8.ofNat (value + 0xC0) < 0x80 ∧
        UInt8.ofNat (value + 0xC0) &&& 0xE0 = 0xC0 ∧
        (UInt8.ofNat (value + 0xC0)).toNat % 32 = value) ∧
      (∀ value < 0x10, UInt8.ofNat (value + 0xE0) ≠ 0 ∧ ¬ UInt8.ofNat (value + 0xE0) < 0x80 ∧
        UInt8.ofNat (value + 0xE0) &&& 0xE0 ≠ 0xC0 ∧ UInt8.ofNat (value + 0xE0) &&& 0xF0 = 0xE0 ∧
        (UInt8.ofNat (value + 0xE0)).toNat % 16 = value) ∧
      ∀ value < 0x40, (UInt8.ofNat (value + 0x80)).toNat % 64 = value := by
  decide +kernel

/-- The decoder inverts the encoding of a character of at most three bytes, whatever follows. -/
theorem utf8Next_encoded {char : Char} (basic : 0 < char.toNat ∧ char.toNat < 0x10000)
    (rest : List UInt8) :
    utf8Next (String.utf8EncodeChar char ++ rest) = some (char.toNat, rest) := by
  obtain ⟨two, three, tail⟩ := utf8Next_table
  have last : ∀ value : Nat, (UInt8.ofNat (value % 0x40 + 0x80)).toNat % 64 = value % 0x40 :=
    fun value => tail _ (Nat.mod_lt _ (by decide))
  obtain ⟨positive, bound⟩ := basic
  change 0 < char.val.toNat at positive
  change char.val.toNat < 0x10000 at bound
  change utf8Next _ = some (char.val.toNat, rest)
  unfold String.utf8EncodeChar
  dsimp only
  generalize char.val.toNat = value at positive bound ⊢
  split
  · next short =>
    have same : (UInt8.ofNat value).toNat = value := UInt8.toNat_ofNat_of_lt' (by
      simp only [UInt8.size]
      omega)
    have nonzero : UInt8.ofNat value ≠ 0 := by
      intro zero
      rw [zero] at same
      exact absurd same.symm (Nat.ne_of_gt positive)
    have low : UInt8.ofNat value < 0x80 := by
      rw [UInt8.lt_iff_toNat_lt, same]
      exact Nat.lt_succ_of_le short
    rw [List.singleton_append, utf8Next, if_neg nonzero, if_pos low, same]
  · split
    · obtain ⟨nonzero, high, mark, bits⟩ := two (value / 64 % 0x20) (Nat.mod_lt _ (by decide))
      have joined : value / 64 % 0x20 * 64 + value % 0x40 = value := by omega
      rw [List.cons_append, utf8Next, if_neg nonzero, if_neg high, if_pos mark, bits,
        List.cons_append, List.headD_cons, last, joined]
      rfl
    · split
      · obtain ⟨nonzero, high, other, mark, bits⟩ :=
          three (value / 4096 % 0x10) (Nat.mod_lt _ (by decide))
        have joined : value / 4096 % 0x10 * 4096 + value / 64 % 0x40 * 64 + value % 0x40 =
            value := by omega
        rw [List.cons_append, utf8Next, if_neg nonzero, if_neg high, if_neg other, if_pos mark,
          bits, List.cons_append, List.headD_cons, List.cons_append, List.getD_cons_succ,
          List.getD_cons_zero, last, last, joined]
        rfl
      · omega

/-- Reading on after a character leaves the code points of the rest. -/
theorem codePointsUpTo_encoded {text : List Char}
    (basic : ∀ char ∈ text, 0 < char.toNat ∧ char.toNat < 0x10000) {rounds : Nat}
    (enough : (encoded text).length ≤ rounds) :
    codePointsUpTo rounds (encoded text) = text.map Char.toNat := by
  induction text generalizing rounds with
  | nil =>
      cases rounds with
      | zero => rfl
      | succ rounds => rfl
  | cons char rest ih =>
      rw [List.forall_mem_cons] at basic
      have shape : encoded (char :: rest) = String.utf8EncodeChar char ++ encoded rest := rfl
      obtain ⟨front, last, bytes, _⟩ := utf8EncodeChar_last char
      have someByte : 0 < (String.utf8EncodeChar char).length := by
        rw [bytes, List.length_append]
        exact Nat.succ_pos _
      rw [shape, List.length_append] at enough
      obtain ⟨less, rfl⟩ : ∃ less, rounds = less + 1 := ⟨rounds - 1, by omega⟩
      rw [shape, codePointsUpTo, utf8Next_encoded basic.1]
      exact congrArg (char.toNat :: ·) (ih basic.2 (by omega))

/-- The loop finds the characters of a text in order. -/
theorem codePoints_encoded {text : List Char}
    (basic : ∀ char ∈ text, 0 < char.toNat ∧ char.toNat < 0x10000) :
    codePoints (encoded text) = text.map Char.toNat :=
  codePointsUpTo_encoded basic (Nat.le_refl _)

end Nookobo.Text
