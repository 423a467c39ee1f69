import Nookobo.Text.Utf8Valid
import Nookobo.Text.CString
import Mathlib.Data.List.Infix

/-!
# The names of MTP objects

`sanitize_name` decides which file names a USB host may give and how they are
repaired. A C string is the list of its bytes before the NUL, and reading past
them meets the NUL. The functions work in place, so each returns its code and
what the array then holds.
-/

namespace Nookobo.Mtp

open Nookobo.Text

/-! ## `utf8_validate` -/

/-- What the first byte of a longer sequence announces: `bytes`, and the bits of `cp` in it. -/
def leadByte (first : UInt8) : Option (Nat × Nat) :=
  if first &&& 0xE0 = 0xC0 then some (2, (first &&& 0x1F).toNat)
  else if first &&& 0xF0 = 0xE0 then some (3, (first &&& 0x0F).toNat)
  else if first &&& 0xF8 = 0xF0 then some (4, (first &&& 0x07).toNat)
  else none

/-- The loop over the continuation bytes; the NUL is none. -/
def continuationBytes : Nat → Nat → List UInt8 → Option (Nat × List UInt8)
  | 0, cp, rest => some (cp, rest)
  | _ + 1, _, [] => none
  | bytes + 1, cp, byte :: rest =>
      if byte &&& 0xC0 ≠ 0x80 then none
      else continuationBytes bytes (cp <<< 6 ||| (byte &&& 0x3F).toNat) rest

/-- The tests made once a sequence is read. -/
def acceptedSequence (bytes cp : Nat) : Bool :=
  if bytes = 2 ∧ cp < 0x80 then false
  else if bytes = 3 ∧ cp < 0x800 then false
  else if bytes = 4 ∧ cp < 0x10000 then false
  else if 0xD800 ≤ cp ∧ cp ≤ 0xDFFF then false
  else if 0x10FFFF < cp then false
  else true

/-- A round of the loop on a string that has not ended: what is left, unless it returns 0. -/
def validateRound (first : UInt8) (rest : List UInt8) : Option (List UInt8) :=
  if first < 0x80 then some rest
  else
    match leadByte first with
    | none => none
    | some (bytes, lead) =>
        match continuationBytes (bytes - 1) lead rest with
        | none => none
        | some (cp, left) => if acceptedSequence bytes cp then some left else none

/-- The loop, with a bound on its rounds. -/
def utf8ValidateUpTo : Nat → List UInt8 → Bool
  | _, [] => true
  | 0, _ :: _ => false
  | rounds + 1, first :: rest =>
      match validateRound first rest with
      | none => false
      | some left => utf8ValidateUpTo rounds left

/-- `utf8_validate`; every round takes at least one byte. -/
def utf8Validate (src : List UInt8) : Bool := utf8ValidateUpTo src.length src

/-! ## `sanitize_name` -/

/-- `is_forbidden_ascii`: the control characters and the bytes of `/\:*?"<>|;`. -/
def isForbiddenAscii (c : UInt8) : Bool :=
  c < 0x20 || c == 0x7F || c ∈ ascii "/\\:*?\"<>|;"

/-- What step 2 stores for a byte. -/
def replaced (c : UInt8) : UInt8 :=
  if 0x80 ≤ c then c else if isForbiddenAscii c then 0x5F else c

/-- The loop of step 2 from the write index `wi`; false when it met `max_len`. -/
def copyReplacing (maxLen : Int) : Nat → List UInt8 → Bool × List UInt8
  | _, [] => (true, [])
  | wi, c :: rest =>
      if 0 < maxLen ∧ maxLen ≤ wi then (false, [])
      else
        let (whole, copied) := copyReplacing maxLen (wi + 1) rest
        (whole, replaced c :: copied)

/-- The space, which is stripped on both sides. -/
def space : UInt8 := 0x20

/-- The dot, which is stripped at the end. -/
def dot : UInt8 := 0x2E

/-- The slash, which is stripped in front and replaced elsewhere. -/
def slash : UInt8 := 0x2F

/-- Step 3: the bytes the name may not begin with. -/
def strippedInFront (c : UInt8) : Bool := c == space || c == slash

/-- Step 4: the bytes the name may not end with. -/
def strippedAtEnd (c : UInt8) : Bool := c == dot || c == space

/-- `sanitize_name`: the code it returns, 1 or -1, and what is left in the array. -/
def sanitizeName (str : List UInt8) (maxLen : Int) : Int × List UInt8 :=
  if [dot, dot] <:+: str then (-1, str)
  else if !utf8Validate str then (-1, str)
  else
    match copyReplacing maxLen 0 str with
    | (false, copied) => (-1, copied.dropLast)
    | (true, copied) =>
        let kept := (copied.dropWhile strippedInFront).rdropWhile strippedAtEnd
        if kept = [] then (-1, kept) else (1, kept)

/-! ## Valid names -/

/-- What the masks of `utf8_validate` make of a lead byte. -/
theorem leadByte_table : ∀ value < 256, leadByte (UInt8.ofNat value) =
    if 0xC0 ≤ value ∧ value < 0xE0 then some (2, value % 32)
    else if 0xE0 ≤ value ∧ value < 0xF0 then some (3, value % 16)
    else if 0xF0 ≤ value ∧ value < 0xF8 then some (4, value % 8)
    else none := by
  decide +kernel

/-- What the masks of `utf8_validate` make of a continuation byte. -/
theorem continuation_table : ∀ value < 256,
    (UInt8.ofNat value &&& 0xC0 = 0x80 ↔ 0x80 ≤ value ∧ value < 0xC0) ∧
      (UInt8.ofNat value &&& 0x3F).toNat = value % 64 := by
  decide +kernel

/-- The continuation byte that carries six bits. -/
def continuation (bits : Nat) : UInt8 := UInt8.ofNat (bits + 0x80)

/-- A continuation byte is marked as one and gives its six bits. -/
theorem continuation_spec {bits : Nat} (small : bits < 64) :
    continuation bits &&& 0xC0 = 0x80 ∧ (continuation bits &&& 0x3F).toNat = bits := by
  obtain ⟨marked, payload⟩ := continuation_table (bits + 0x80) (by omega)
  refine ⟨marked.mpr (by omega), payload.trans ?_⟩
  omega

/-- A byte that is marked as a continuation is the one of its six bits. -/
theorem eq_continuation {byte : UInt8} (marked : byte &&& 0xC0 = 0x80) :
    (byte &&& 0x3F).toNat < 64 ∧ continuation (byte &&& 0x3F).toNat = byte := by
  obtain ⟨range, payload⟩ := continuation_table byte.toNat byte.toNat_lt
  rw [UInt8.ofNat_toNat] at range payload
  have bounds := range.mp marked
  refine ⟨by omega, ?_⟩
  rw [continuation, payload, show byte.toNat % 64 + 0x80 = byte.toNat by omega, UInt8.ofNat_toNat]

/-- Shifting six bits in is multiplying and adding. -/
theorem shiftLeft_or {cp bits : Nat} (small : bits < 64) : cp <<< 6 ||| bits = cp * 64 + bits := by
  rw [← Nat.shiftLeft_add_eq_or_of_lt small, Nat.shiftLeft_eq]

/-- The loop succeeds exactly on continuation bytes, and collects their bits. -/
theorem continuationBytes_iff {bytes cp code : Nat} {rest left : List UInt8} :
    continuationBytes bytes cp rest = some (code, left) ↔
      ∃ payload : List Nat, payload.length = bytes ∧ (∀ bits ∈ payload, bits < 64) ∧
        rest = payload.map continuation ++ left ∧
        code = payload.foldl (fun cp bits => cp * 64 + bits) cp := by
  induction bytes generalizing cp rest with
  | zero =>
      simp only [continuationBytes, Option.some.injEq, Prod.mk.injEq]
      constructor
      · rintro ⟨rfl, rfl⟩
        exact ⟨[], rfl, by simp, rfl, rfl⟩
      · rintro ⟨payload, empty, -, rfl, rfl⟩
        cases List.eq_nil_of_length_eq_zero empty
        exact ⟨rfl, rfl⟩
  | succ bytes ih =>
      constructor
      · intro collected
        cases rest with
        | nil => cases collected
        | cons byte rest =>
            rw [continuationBytes] at collected
            split at collected
            · cases collected
            · next marked =>
              obtain ⟨small, same⟩ := eq_continuation (not_not.mp marked)
              obtain ⟨payload, length, bounded, rfl, rfl⟩ := ih.mp collected
              refine ⟨(byte &&& 0x3F).toNat :: payload, congrArg (· + 1) length,
                List.forall_mem_cons.mpr ⟨small, bounded⟩, ?_, ?_⟩
              · rw [List.map_cons, List.cons_append, same]
              · rw [List.foldl_cons, shiftLeft_or small]
      · rintro ⟨payload, length, bounded, rfl, rfl⟩
        cases payload with
        | nil => cases length
        | cons bits payload =>
            obtain ⟨small, bounded⟩ := List.forall_mem_cons.mp bounded
            obtain ⟨marked, same⟩ := continuation_spec small
            rw [List.map_cons, List.cons_append, continuationBytes, if_neg (not_not.mpr marked),
              same, shiftLeft_or small, List.foldl_cons]
            exact ih.mpr ⟨payload, Nat.succ.inj length, bounded, rfl, rfl⟩

/-- A valid code point is the one of its character. -/
theorem toNat_ofNat_char {cp : Nat} (valid : cp.isValidChar) : (Char.ofNat cp).toNat = cp := by
  unfold Char.ofNat
  rw [dif_pos valid]
  rfl

/-- The encoding of a character from U+0080 on: a first byte and continuation bytes. -/
theorem utf8EncodeChar_long {cp : Nat} (valid : cp.isValidChar) (long : 0x80 ≤ cp) :
    String.utf8EncodeChar (Char.ofNat cp) =
      if cp < 0x800 then UInt8.ofNat (cp / 64 + 0xC0) :: [cp % 64].map continuation
      else if cp < 0x10000 then
        UInt8.ofNat (cp / 4096 + 0xE0) :: [cp / 64 % 64, cp % 64].map continuation
      else
        UInt8.ofNat (cp / 262144 + 0xF0) ::
          [cp / 4096 % 64, cp / 64 % 64, cp % 64].map continuation := by
  have value : (Char.ofNat cp).val.toNat = cp := toNat_ofNat_char valid
  have top : cp < 0x110000 := by rcases valid with low | ⟨-, high⟩ <;> omega
  unfold String.utf8EncodeChar
  dsimp only
  rw [value, if_neg (by omega)]
  by_cases two : cp < 0x800
  · rw [if_pos (by omega), if_pos two, Nat.mod_eq_of_lt (a := cp / 64) (by omega)]
    rfl
  · by_cases three : cp < 0x10000
    · rw [if_neg (by omega), if_pos (by omega), if_neg two, if_pos three,
        Nat.mod_eq_of_lt (a := cp / 4096) (by omega)]
      rfl
    · rw [if_neg (by omega), if_neg (by omega), if_neg two, if_neg three,
        Nat.mod_eq_of_lt (a := cp / 262144) (by omega)]
      rfl

/-- What the checks behind the loop accept: no overlong form, no surrogate, nothing beyond the
range. -/
theorem acceptedSequence_iff {bytes cp : Nat} :
    acceptedSequence bytes cp = true ↔
      (bytes = 2 → 0x80 ≤ cp) ∧ (bytes = 3 → 0x800 ≤ cp) ∧ (bytes = 4 → 0x10000 ≤ cp) ∧
        cp.isValidChar := by
  unfold acceptedSequence Nat.isValidChar
  split_ifs <;> simp only [false_iff, true_iff] <;> omega

/-- What the loop has read and tested is a character of more than one byte. -/
theorem utf8EncodeChar_of_accepted {first : UInt8} {bytes lead cp : Nat} {payload : List Nat}
    (leads : leadByte first = some (bytes, lead)) (length : payload.length = bytes - 1)
    (bounded : ∀ bits ∈ payload, bits < 64)
    (code : cp = payload.foldl (fun cp bits => cp * 64 + bits) lead)
    (accepted : acceptedSequence bytes cp = true) :
    String.utf8EncodeChar (Char.ofNat cp) = first :: payload.map continuation := by
  obtain ⟨two, three, four, valid⟩ := acceptedSequence_iff.mp accepted
  have table := leadByte_table first.toNat first.toNat_lt
  rw [UInt8.ofNat_toNat, leads] at table
  have top : cp < 0x110000 := by rcases valid with low | ⟨-, high⟩ <;> omega
  split_ifs at table with isTwo isThree isFour
  · cases table
    obtain ⟨a, rfl⟩ := List.length_eq_one_iff.mp length
    have small := bounded a List.mem_cons_self
    simp only [List.foldl_cons, List.foldl_nil] at code
    have long := two rfl
    rw [utf8EncodeChar_long valid long, if_pos (by omega),
      show cp / 64 + 0xC0 = first.toNat by omega, show cp % 64 = a by omega, UInt8.ofNat_toNat]
  · cases table
    obtain ⟨a, b, rfl⟩ := List.length_eq_two.mp length
    have smallA := bounded a (by simp)
    have smallB := bounded b (by simp)
    simp only [List.foldl_cons, List.foldl_nil] at code
    have long := three rfl
    rw [utf8EncodeChar_long valid (by omega), if_neg (by omega), if_pos (by omega),
      show cp / 4096 + 0xE0 = first.toNat by omega, show cp / 64 % 64 = a by omega,
      show cp % 64 = b by omega, UInt8.ofNat_toNat]
  · cases table
    obtain ⟨a, b, c, rfl⟩ := List.length_eq_three.mp length
    have smallA := bounded a (by simp)
    have smallB := bounded b (by simp)
    have smallC := bounded c (by simp)
    simp only [List.foldl_cons, List.foldl_nil] at code
    have long := four rfl
    rw [utf8EncodeChar_long valid (by omega), if_neg (by omega), if_neg (by omega),
      show cp / 262144 + 0xF0 = first.toNat by omega, show cp / 4096 % 64 = a by omega,
      show cp / 64 % 64 = b by omega, show cp % 64 = c by omega, UInt8.ofNat_toNat]

/-- The loop reads and accepts every character of more than one byte. -/
theorem accepted_of_utf8EncodeChar {cp : Nat} (valid : cp.isValidChar) (long : 0x80 ≤ cp) :
    ∃ (first : UInt8) (bytes lead : Nat) (payload : List Nat),
      String.utf8EncodeChar (Char.ofNat cp) = first :: payload.map continuation ∧
      ¬ first < 0x80 ∧ leadByte first = some (bytes, lead) ∧ payload.length = bytes - 1 ∧
      (∀ bits ∈ payload, bits < 64) ∧
      cp = payload.foldl (fun cp bits => cp * 64 + bits) lead ∧
      acceptedSequence bytes cp = true := by
  have top : cp < 0x110000 := by rcases valid with low | ⟨-, high⟩ <;> omega
  have six : ∀ value : Nat, value % 64 < 64 := fun value => Nat.mod_lt _ (by decide)
  have notAscii : ∀ value, 0x80 ≤ value → value < 256 → ¬ UInt8.ofNat value < 0x80 := by
    intro value large small
    rw [UInt8.lt_iff_toNat_lt, UInt8.toNat_ofNat', Nat.mod_eq_of_lt small]
    exact Nat.not_lt.mpr large
  rw [utf8EncodeChar_long valid long]
  by_cases two : cp < 0x800
  · refine ⟨_, 2, cp / 64, _, if_pos two, notAscii _ (by omega) (by omega), ?_, rfl,
      List.forall_mem_cons.mpr ⟨six _, by simp⟩, ?_,
      acceptedSequence_iff.mpr ⟨fun _ => long, by simp, by simp, valid⟩⟩
    · rw [leadByte_table _ (by omega), if_pos (by omega)]
      congr 2
      omega
    · simp only [List.foldl_cons, List.foldl_nil]
      omega
  · by_cases three : cp < 0x10000
    · refine ⟨_, 3, cp / 4096, _, (if_neg two).trans (if_pos three),
        notAscii _ (by omega) (by omega), ?_, rfl,
        List.forall_mem_cons.mpr ⟨six _, List.forall_mem_cons.mpr ⟨six _, by simp⟩⟩, ?_,
        acceptedSequence_iff.mpr ⟨by simp, fun _ => by omega, by simp, valid⟩⟩
      · rw [leadByte_table _ (by omega), if_neg (by omega), if_pos (by omega)]
        congr 2
        omega
      · simp only [List.foldl_cons, List.foldl_nil]
        omega
    · refine ⟨_, 4, cp / 262144, _, (if_neg two).trans (if_neg three),
        notAscii _ (by omega) (by omega), ?_, rfl,
        List.forall_mem_cons.mpr ⟨six _, List.forall_mem_cons.mpr ⟨six _,
          List.forall_mem_cons.mpr ⟨six _, by simp⟩⟩⟩, ?_,
        acceptedSequence_iff.mpr ⟨by simp, by simp, fun _ => by omega, valid⟩⟩
      · rw [leadByte_table _ (by omega), if_neg (by omega), if_neg (by omega), if_pos (by omega)]
        congr 2
        omega
      · simp only [List.foldl_cons, List.foldl_nil]
        omega

/-- A round of the loop takes exactly one character. -/
theorem validateRound_iff {first : UInt8} {rest left : List UInt8} :
    validateRound first rest = some left ↔
      ∃ char : Char, first :: rest = String.utf8EncodeChar char ++ left := by
  by_cases ascii : first < 0x80
  · rw [validateRound, if_pos ascii, Option.some.injEq]
    constructor
    · rintro rfl
      exact ⟨Char.ofNat first.toNat, by rw [utf8EncodeChar_ofNat_toNat ascii]; rfl⟩
    · rintro ⟨char, same⟩
      rcases utf8EncodeChar_cases char with ⟨-, single⟩ | ⟨-, nonempty, high⟩
      · rw [single] at same
        exact (List.cons.inj same).2
      · obtain ⟨byte, others, shape⟩ := List.exists_cons_of_ne_nil nonempty
        rw [shape] at same high
        rw [(List.cons.inj same).1] at ascii
        exact absurd ascii (high byte List.mem_cons_self)
  · rw [validateRound, if_neg ascii]
    constructor
    · intro taken
      split at taken
      · cases taken
      · next bytes lead leads =>
        split at taken
        · cases taken
        · next cp after collected =>
          split at taken
          · next accepted =>
            cases taken
            obtain ⟨payload, length, bounded, rfl, code⟩ := continuationBytes_iff.mp collected
            exact ⟨Char.ofNat cp,
              by rw [utf8EncodeChar_of_accepted leads length bounded code accepted]; rfl⟩
          · cases taken
    · rintro ⟨char, same⟩
      have valid : char.toNat.isValidChar := char.valid
      have long : 0x80 ≤ char.toNat := by
        rcases utf8EncodeChar_cases char with ⟨small, single⟩ | ⟨long, -⟩
        · rw [single] at same
          rw [(List.cons.inj same).1, UInt8.lt_iff_toNat_lt, UInt8.toNat_ofNat',
            Nat.mod_eq_of_lt (by omega)] at ascii
          exact Nat.not_lt.mp ascii
        · exact long
      obtain ⟨byte, bytes, lead, payload, encodes, -, leads, length, bounded, code, accepted⟩ :=
        accepted_of_utf8EncodeChar valid long
      rw [Char.ofNat_toNat] at encodes
      rw [encodes, List.cons_append] at same
      obtain ⟨rfl, rfl⟩ := List.cons.inj same
      rw [leads]
      dsimp only
      rw [continuationBytes_iff.mpr ⟨payload, length, bounded, rfl, code⟩]
      dsimp only
      rw [if_pos accepted]

/-- The validation accepts exactly the valid UTF-8 texts. -/
theorem utf8ValidateUpTo_iff {rounds : Nat} {src : List UInt8} (enough : src.length ≤ rounds) :
    utf8ValidateUpTo rounds src = true ↔ ValidUtf8 src := by
  induction rounds generalizing src with
  | zero =>
      cases List.eq_nil_of_length_eq_zero (Nat.le_zero.mp enough)
      exact iff_of_true rfl validUtf8_nil
  | succ rounds ih =>
      cases src with
      | nil => exact iff_of_true rfl validUtf8_nil
      | cons first rest =>
          have shorter : ∀ {char : Char} {left : List UInt8},
              first :: rest = String.utf8EncodeChar char ++ left → left.length ≤ rounds := by
            intro char left taken
            have lengths := congrArg List.length taken
            have positive : 0 < (String.utf8EncodeChar char).length :=
              List.length_pos_iff.mpr String.utf8EncodeChar_ne_nil
            rw [List.length_append, List.length_cons] at lengths
            rw [List.length_cons] at enough
            omega
          rw [utf8ValidateUpTo]
          constructor
          · intro validated
            split at validated
            · cases validated
            · next left taken =>
              obtain ⟨char, shape⟩ := validateRound_iff.mp taken
              obtain ⟨text, encodes⟩ := (ih (shorter shape)).mp validated
              exact ⟨char :: text, by rw [encoded_cons, encodes, shape]⟩
          · rintro ⟨text, encodes⟩
            cases text with
            | nil => cases encodes
            | cons char text =>
                rw [encoded_cons] at encodes
                rw [validateRound_iff.mpr ⟨char, encodes.symm⟩]
                exact (ih (shorter encodes.symm)).mpr ⟨text, rfl⟩

/-- `utf8_validate` accepts exactly the encodings of texts: no overlong form, no surrogate and
nothing above U+10FFFF. -/
theorem utf8Validate_iff (src : List UInt8) : utf8Validate src = true ↔ ValidUtf8 src :=
  utf8ValidateUpTo_iff le_rfl

/-! ## Sanitised names -/

/-- A name that is one component of a path on every file system the host may know. -/
structure SafeName (name : List UInt8) : Prop where
  nonempty : name ≠ []
  valid : ValidUtf8 name
  allowed : ∀ c ∈ name, c < 0x80 → isForbiddenAscii c = false
  noTraversal : ¬ [dot, dot] <:+: name
  front : ∀ c ∈ name.head?, c ≠ space
  back : ∀ c ∈ name.getLast?, c ≠ dot ∧ c ≠ space

/-- What becomes of a byte: a forbidden one is replaced, and neither dot nor space is made. -/
theorem replaced_table : ∀ value < 256,
    (UInt8.ofNat value < 0x80 → replaced (UInt8.ofNat value) < 0x80 ∧
        isForbiddenAscii (replaced (UInt8.ofNat value)) = false) ∧
      (¬ UInt8.ofNat value < 0x80 → replaced (UInt8.ofNat value) = UInt8.ofNat value) ∧
      (replaced (UInt8.ofNat value) = dot ↔ UInt8.ofNat value = dot) ∧
      (replaced (UInt8.ofNat value) = space ↔ UInt8.ofNat value = space) ∧
      (isForbiddenAscii (UInt8.ofNat value) = false →
        replaced (UInt8.ofNat value) = UInt8.ofNat value) ∧
      replaced (UInt8.ofNat value) ≠ slash := by
  decide +kernel

/-- What the replacement of one byte does. -/
theorem replaced_spec (c : UInt8) :
    (c < 0x80 → replaced c < 0x80 ∧ isForbiddenAscii (replaced c) = false) ∧
      (¬ c < 0x80 → replaced c = c) ∧ (replaced c = dot ↔ c = dot) ∧
      (replaced c = space ↔ c = space) ∧ (isForbiddenAscii c = false → replaced c = c) ∧
      replaced c ≠ slash := by
  have table := replaced_table c.toNat c.toNat_lt
  rwa [UInt8.ofNat_toNat] at table

/-- Step 2 replaces every byte, and stops short exactly when the name is too long. -/
theorem copyReplacing_spec (maxLen : Int) (wi : Nat) (inside : 0 < maxLen → (wi : Int) ≤ maxLen)
    (str : List UInt8) :
    ((copyReplacing maxLen wi str).1 = true ↔ (0 < maxLen → (wi + str.length : Int) ≤ maxLen)) ∧
      ((copyReplacing maxLen wi str).1 = true →
        (copyReplacing maxLen wi str).2 = str.map replaced) := by
  induction str generalizing wi with
  | nil => simpa [copyReplacing] using inside
  | cons c rest ih =>
      rw [copyReplacing]
      split
      · next full =>
        simp only [Bool.false_eq_true, false_iff, false_implies, and_true, List.length_cons]
        omega
      · next room =>
        obtain ⟨fits, copies⟩ := ih (wi + 1) (by omega)
        refine ⟨fits.trans ?_, fun whole => congrArg (replaced c :: ·) (copies whole)⟩
        simp only [List.length_cons]
        omega

/-- The name that is left when nothing is rejected. -/
def cleaned (str : List UInt8) : List UInt8 :=
  ((str.map replaced).dropWhile strippedInFront).rdropWhile strippedAtEnd

/-- Spaces and slashes are stripped in front. -/
theorem strippedInFront_iff {c : UInt8} : strippedInFront c = true ↔ c = space ∨ c = slash := by
  simp [strippedInFront]

/-- Dots and spaces are stripped at the end. -/
theorem strippedAtEnd_iff {c : UInt8} : strippedAtEnd c = true ↔ c = dot ∨ c = space := by
  simp [strippedAtEnd]

/-- Only dots and spaces are cleaned away altogether. -/
theorem cleaned_eq_nil_iff (str : List UInt8) :
    cleaned str = [] ↔ ∀ c ∈ str, c = dot ∨ c = space := by
  have only : cleaned str = [] ↔ ∀ c ∈ str.map replaced, c = dot ∨ c = space := by
    rw [cleaned, List.rdropWhile_eq_nil_iff]
    simp only [strippedAtEnd_iff]
    constructor
    · intro rest c member
      rw [← List.takeWhile_append_dropWhile (p := strippedInFront) (l := str.map replaced),
        List.mem_append] at member
      rcases member with taken | left
      · rcases strippedInFront_iff.mp (List.mem_takeWhile_imp taken) with isSpace | isSlash
        · exact .inr isSpace
        · obtain ⟨old, -, rfl⟩ := List.mem_map.mp ((List.takeWhile_sublist _).mem taken)
          exact absurd isSlash (replaced_spec old).2.2.2.2.2
      · exact rest c left
    · exact fun all c left => all c ((List.dropWhile_sublist _).mem left)
  rw [only, List.forall_mem_map]
  refine forall₂_congr fun c _ => ?_
  obtain ⟨-, -, dots, spaces, -, -⟩ := replaced_spec c
  rw [dots, spaces]

/-- The whole of `sanitize_name` where it succeeds. -/
theorem sanitizeName_eq_one_iff {str name : List UInt8} {maxLen : Int} :
    sanitizeName str maxLen = (1, name) ↔
      ¬ [dot, dot] <:+: str ∧ ValidUtf8 str ∧ (0 < maxLen → (str.length : Int) ≤ maxLen) ∧
        name = cleaned str ∧ name ≠ [] := by
  obtain ⟨fits, copies⟩ := copyReplacing_spec maxLen 0 (by omega) str
  simp only [Int.natCast_zero, Int.zero_add] at fits
  rw [sanitizeName]
  split
  · next traversal => simp [traversal]
  · next clean =>
    split
    · next malformed =>
      have invalid : ¬ ValidUtf8 str := fun valid => by
        rw [(utf8Validate_iff str).mpr valid] at malformed
        cases malformed
      simp [invalid]
    · next wellFormed =>
      have valid := (utf8Validate_iff str).mp (by simpa using wellFormed)
      rw [← fits]
      split
      · next copied short => simp [short]
      · next copied whole =>
        rw [whole] at copies fits ⊢
        cases copies rfl
        rw [← cleaned]
        by_cases empty : cleaned str = []
        · rw [if_pos empty]
          simp only [Prod.mk.injEq, reduceCtorEq, false_and, false_iff, not_and]
          rintro - - - rfl
          exact not_not.mpr empty
        · rw [if_neg empty]
          simp only [Prod.mk.injEq, true_and, clean, not_false_eq_true, valid]
          constructor
          · rintro rfl
            exact ⟨rfl, empty⟩
          · rintro ⟨rfl, -⟩
            rfl

/-- A byte of the cleaned name is what replaced a byte of the given one. -/
theorem mem_cleaned {str : List UInt8} {c : UInt8} (member : c ∈ cleaned str) :
    ∃ old ∈ str, replaced old = c :=
  List.mem_map.mp
    ((List.dropWhile_sublist _).mem ((List.rdropWhile_prefix _ _).sublist.mem member))

/-- Cleaning makes no two dots in a row. -/
theorem not_infix_cleaned {str : List UInt8} (clean : ¬ [dot, dot] <:+: str) :
    ¬ [dot, dot] <:+: cleaned str := by
  intro traversal
  have inside : [dot, dot] <:+: str.map replaced :=
    traversal.trans ((List.rdropWhile_prefix _ _).isInfix.trans (List.dropWhile_suffix _).isInfix)
  obtain ⟨before, after, shape⟩ := inside
  obtain ⟨first, rest, rfl, firsts, -⟩ := List.map_eq_append_iff.mp shape.symm
  obtain ⟨left, dots, rfl, -, twoDots⟩ := List.map_eq_append_iff.mp firsts
  obtain ⟨a, others, rfl, isDot, more⟩ := List.map_eq_cons_iff.mp twoDots
  obtain ⟨b, none, rfl, isDot', empty⟩ := List.map_eq_cons_iff.mp more
  cases List.map_eq_nil_iff.mp empty
  cases (replaced_spec a).2.2.1.mp isDot
  cases (replaced_spec b).2.2.1.mp isDot'
  exact clean ⟨left, rest, rfl⟩

/-- What the function leaves behind when it succeeds is safe. -/
theorem safeName_cleaned {str : List UInt8} (clean : ¬ [dot, dot] <:+: str)
    (valid : ValidUtf8 str) (nonempty : cleaned str ≠ []) : SafeName (cleaned str) where
  nonempty := nonempty
  valid := by
    have ascii : ∀ c, strippedInFront c = true → c < 0x80 := by
      intro c stripped
      rcases strippedInFront_iff.mp stripped with rfl | rfl <;> decide
    have ascii' : ∀ c, strippedAtEnd c = true → c < 0x80 := by
      intro c stripped
      rcases strippedAtEnd_iff.mp stripped with rfl | rfl <;> decide
    exact ((valid.map (fun c low => ((replaced_spec c).1 low).1)
      fun c high => (replaced_spec c).2.1 high).dropWhile ascii).rdropWhile ascii'
  allowed := by
    intro c member low
    obtain ⟨old, -, rfl⟩ := mem_cleaned member
    by_cases oldLow : old < 0x80
    · exact ((replaced_spec old).1 oldLow).2
    · rw [(replaced_spec old).2.1 oldLow] at low
      exact absurd low oldLow
  noTraversal := not_infix_cleaned clean
  front := by
    intro c first isSpace
    obtain ⟨others, shape⟩ := List.rdropWhile_prefix strippedAtEnd
      ((str.map replaced).dropWhile strippedInFront)
    have firstLeft : c ∈ ((str.map replaced).dropWhile strippedInFront).head? := by
      rw [← shape, List.head?_append, ← cleaned, first]
      rfl
    have kept := List.head?_dropWhile_not strippedInFront (str.map replaced)
    rw [firstLeft] at kept
    change strippedInFront c = false at kept
    rw [strippedInFront_iff.mpr (.inl isSpace)] at kept
    cases kept
  back := by
    intro c last
    have kept := List.rdropWhile_last_not strippedAtEnd _ nonempty
    rw [List.getLast?_eq_getLast_of_ne_nil nonempty] at last
    cases last
    rw [strippedAtEnd_iff, not_or] at kept
    exact kept

/-- A safe name is not changed. -/
theorem SafeName.cleaned_eq {name : List UInt8} (safe : SafeName name) : cleaned name = name := by
  have same : name.map replaced = name := by
    refine (List.map_congr_left fun c member => ?_).trans (List.map_id' name)
    by_cases low : c < 0x80
    · exact (replaced_spec c).2.2.2.2.1 (safe.allowed c member low)
    · exact (replaced_spec c).2.1 low
  have inFront : (name.map replaced).dropWhile strippedInFront = name := by
    rw [same]
    obtain ⟨c, rest, rfl⟩ := List.exists_cons_of_ne_nil safe.nonempty
    refine List.dropWhile_cons_of_neg fun stripped => ?_
    rcases strippedInFront_iff.mp stripped with isSpace | rfl
    · exact safe.front c rfl isSpace
    · exact absurd (safe.allowed slash List.mem_cons_self (by decide)) (by decide)
  rw [cleaned, inFront, List.rdropWhile_eq_self_iff]
  intro nonempty stripped
  obtain ⟨notDot, notSpace⟩ := safe.back _ (List.getLast?_eq_getLast_of_ne_nil nonempty)
  rcases strippedAtEnd_iff.mp stripped with isDot | isSpace
  · exact notDot isDot
  · exact notSpace isSpace

/-- Cleaning makes a name no longer. -/
theorem length_cleaned_le (str : List UInt8) : (cleaned str).length ≤ str.length := by
  refine le_trans (List.rdropWhile_prefix _ _).length_le ?_
  exact le_trans (List.dropWhile_suffix _).length_le (by rw [List.length_map])

/-- A name comes out as it is exactly when it is safe and short enough. -/
theorem sanitizeName_eq_self_iff {name : List UInt8} {maxLen : Int} :
    sanitizeName name maxLen = (1, name) ↔
      SafeName name ∧ (0 < maxLen → (name.length : Int) ≤ maxLen) := by
  rw [sanitizeName_eq_one_iff]
  constructor
  · rintro ⟨clean, valid, fits, same, nonempty⟩
    rw [same] at nonempty
    exact ⟨same ▸ safeName_cleaned clean valid nonempty, fits⟩
  · rintro ⟨safe, fits⟩
    exact ⟨safe.noTraversal, safe.valid, fits, safe.cleaned_eq.symm, safe.nonempty⟩

/-- A name that comes out is safe. -/
theorem sanitizeName_safe {str name : List UInt8} {maxLen : Int}
    (accepted : sanitizeName str maxLen = (1, name)) : SafeName name := by
  obtain ⟨clean, valid, -, rfl, nonempty⟩ := sanitizeName_eq_one_iff.mp accepted
  exact safeName_cleaned clean valid nonempty

/-- `sanitize_name` accepts a name exactly when it has no "..", is valid UTF-8, fits and has a
byte other than dots and spaces. The names it makes of those are exactly the safe names that
fit, and these it leaves alone: sanitising twice is sanitising once. -/
theorem sanitizeName_image (maxLen : Int) :
    (∀ str, (sanitizeName str maxLen).1 = 1 ↔
      ¬ [dot, dot] <:+: str ∧ ValidUtf8 str ∧ (0 < maxLen → (str.length : Int) ≤ maxLen) ∧
        ∃ c ∈ str, c ≠ dot ∧ c ≠ space) ∧
      ∀ name, ((∃ str, sanitizeName str maxLen = (1, name)) ↔
          SafeName name ∧ (0 < maxLen → (name.length : Int) ≤ maxLen)) ∧
        ((∃ str, sanitizeName str maxLen = (1, name)) ↔ sanitizeName name maxLen = (1, name)) := by
  have image : ∀ name, (∃ str, sanitizeName str maxLen = (1, name)) ↔
      SafeName name ∧ (0 < maxLen → (name.length : Int) ≤ maxLen) := by
    intro name
    constructor
    · rintro ⟨str, accepted⟩
      refine ⟨sanitizeName_safe accepted, fun limited => ?_⟩
      obtain ⟨-, -, fits, rfl, -⟩ := sanitizeName_eq_one_iff.mp accepted
      have shorter := length_cleaned_le str
      have whole := fits limited
      omega
    · exact fun safe => ⟨name, sanitizeName_eq_self_iff.mpr safe⟩
  refine ⟨fun str => ?_, fun name => ⟨image name, (image name).trans sanitizeName_eq_self_iff.symm⟩⟩
  have accepts : (sanitizeName str maxLen).1 = 1 ↔ ∃ name, sanitizeName str maxLen = (1, name) :=
    ⟨fun one => ⟨_, Prod.ext one rfl⟩, fun ⟨_, same⟩ => by rw [same]⟩
  rw [accepts]
  simp only [sanitizeName_eq_one_iff, exists_and_left, exists_eq_left]
  refine and_congr_right fun _ => and_congr_right fun _ => and_congr_right fun _ => ?_
  rw [ne_eq, cleaned_eq_nil_iff]
  push Not
  rfl

end Nookobo.Mtp
