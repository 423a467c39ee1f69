import Mathlib.Data.Bool.AllAny
import Mathlib.Data.List.Induction

/-!
# Bytes, C strings and line tokens

Byte strings are lists of `UInt8`. A C string ends at its first NUL, so
`cString` cuts a buffer there. `tokens` lists the pieces that repeated calls
of `strtok` return: the maximal runs without a delimiter, empty runs skipped.
-/

namespace Nookobo.Text

/-- The bytes of an ASCII text. -/
def ascii (text : String) : List UInt8 :=
  text.toList.map fun char => char.toNat.toUInt8

/-- The line feed. -/
def lineFeed : UInt8 := 10

/-- The carriage return. -/
def carriageReturn : UInt8 := 13

/-- The delimiters of `strtok(..., "\r\n")` and `strcspn(..., "\r\n")`. -/
def isLineBreak (byte : UInt8) : Bool :=
  byte == lineFeed || byte == carriageReturn

/-- The C string held by a buffer: everything before the first NUL. -/
def cString (buffer : List UInt8) : List UInt8 :=
  buffer.takeWhile (· ≠ 0)

/-- Close a token under construction; `strtok` never returns an empty one. -/
def flush (current : List UInt8) : List (List UInt8) :=
  if current.isEmpty then [] else [current]

/-- The tokens completed while reading `bytes` after the open piece `current`. -/
def closedTokens : List UInt8 → List UInt8 → List (List UInt8)
  | _, [] => []
  | current, byte :: rest =>
      if isLineBreak byte then flush current ++ closedTokens [] rest
      else closedTokens (current ++ [byte]) rest

/-- The piece still open after reading `bytes`. -/
def openToken : List UInt8 → List UInt8 → List UInt8
  | current, [] => current
  | current, byte :: rest =>
      if isLineBreak byte then openToken [] rest else openToken (current ++ [byte]) rest

/-- The tokens `strtok` cuts out of a buffer that holds `current ++ bytes`, the
first of these being free of delimiters. -/
def tokensAfter (current bytes : List UInt8) : List (List UInt8) :=
  closedTokens current bytes ++ flush (openToken current bytes)

/-- The tokens of a whole buffer. -/
def tokens (bytes : List UInt8) : List (List UInt8) := tokensAfter [] bytes

/-- An empty token is none. -/
@[simp] theorem flush_nil : flush [] = [] := rfl

/-- Any other token is kept. -/
theorem flush_of_ne_nil {current : List UInt8} (nonempty : current ≠ []) :
    flush current = [current] := by
  simp [flush, nonempty]

/-- No token is empty. -/
theorem ne_nil_of_mem_flush {current token : List UInt8} (member : token ∈ flush current) :
    token ≠ [] := by
  by_cases empty : current = []
  · simp [empty] at member
  · rw [flush_of_ne_nil empty, List.mem_singleton] at member
    rw [member]
    exact empty

/-- At the end the open token is closed. -/
@[simp] theorem tokensAfter_nil (current : List UInt8) :
    tokensAfter current [] = flush current := by
  simp [tokensAfter, closedTokens, openToken]

/-- A line break closes the open token. -/
theorem tokensAfter_break {byte : UInt8} (isBreak : isLineBreak byte = true)
    (current rest : List UInt8) :
    tokensAfter current (byte :: rest) = flush current ++ tokens rest := by
  simp [tokensAfter, tokens, closedTokens, openToken, isBreak]

/-- Any other byte goes into the open token. -/
theorem tokensAfter_byte {byte : UInt8} (notBreak : isLineBreak byte = false)
    (current rest : List UInt8) :
    tokensAfter current (byte :: rest) = tokensAfter (current ++ [byte]) rest := by
  simp [tokensAfter, closedTokens, openToken, notBreak]

/-- A run without delimiters only extends the open piece. -/
theorem tokensAfter_append_of_noBreak {text : List UInt8}
    (noBreak : ∀ byte ∈ text, isLineBreak byte = false) (current rest : List UInt8) :
    tokensAfter current (text ++ rest) = tokensAfter (current ++ text) rest := by
  induction text generalizing current with
  | nil => simp
  | cons byte text ih =>
      rw [List.cons_append, tokensAfter_byte (noBreak byte List.mem_cons_self),
        ih (fun other member => noBreak other (List.mem_cons_of_mem _ member))]
      simp

/-- Every token is nonempty. -/
theorem ne_nil_of_mem_tokensAfter {current bytes token : List UInt8}
    (member : token ∈ tokensAfter current bytes) : token ≠ [] := by
  induction bytes generalizing current with
  | nil =>
      rw [tokensAfter_nil] at member
      exact ne_nil_of_mem_flush member
  | cons byte rest ih =>
      cases isBreak : isLineBreak byte with
      | true =>
          rw [tokensAfter_break isBreak, List.mem_append] at member
          rcases member with first | later
          · exact ne_nil_of_mem_flush first
          · exact ih later
      | false =>
          rw [tokensAfter_byte isBreak] at member
          exact ih member

/-- An open piece becomes a token. -/
theorem tokensAfter_ne_nil {current : List UInt8} (opened : current ≠ [])
    (bytes : List UInt8) : tokensAfter current bytes ≠ [] := by
  induction bytes generalizing current with
  | nil => simp [flush_of_ne_nil opened]
  | cons byte rest ih =>
      cases isBreak : isLineBreak byte with
      | true => simp [tokensAfter_break isBreak, flush_of_ne_nil opened]
      | false =>
          rw [tokensAfter_byte isBreak]
          exact ih (by simp)

/-- A buffer yields no token when it holds nothing but delimiters. -/
theorem tokens_eq_nil_iff (bytes : List UInt8) :
    tokens bytes = [] ↔ ∀ byte ∈ bytes, isLineBreak byte = true := by
  induction bytes with
  | nil => simp [tokens]
  | cons byte rest ih =>
      unfold tokens
      cases isBreak : isLineBreak byte with
      | true =>
          rw [tokensAfter_break isBreak, flush_nil, List.nil_append, ih]
          simp [isBreak]
      | false =>
          have opened := tokensAfter_ne_nil (List.cons_ne_nil byte []) rest
          rw [tokensAfter_byte isBreak, List.nil_append]
          simp [opened, isBreak]

/-! ## Cutting a buffer in two -/

/-- The tokens closed over two parts of a text. -/
theorem closedTokens_append (current front back : List UInt8) :
    closedTokens current (front ++ back) =
      closedTokens current front ++ closedTokens (openToken current front) back := by
  induction front generalizing current with
  | nil => rfl
  | cons byte rest ih =>
      simp only [List.cons_append, closedTokens, openToken]
      split
      · rw [ih, List.append_assoc]
      · exact ih _

/-- The token open after two parts of a text. -/
theorem openToken_append (current front back : List UInt8) :
    openToken current (front ++ back) = openToken (openToken current front) back := by
  induction front generalizing current with
  | nil => rfl
  | cons byte rest ih =>
      simp only [List.cons_append, openToken]
      split
      · exact ih _
      · exact ih _

/-- The tokens of a text in two parts: those closed in the first, and those of the rest. -/
theorem tokensAfter_append (current front back : List UInt8) :
    tokensAfter current (front ++ back) =
      closedTokens current front ++ tokensAfter (openToken current front) back := by
  simp only [tokensAfter, closedTokens_append, openToken_append, List.append_assoc]

/-- Nothing is open at the start and after a delimiter. -/
theorem openToken_eq_nil_iff (bytes : List UInt8) :
    openToken [] bytes = [] ↔ ∀ byte ∈ bytes.getLast?, isLineBreak byte = true := by
  induction bytes using List.reverseRecOn with
  | nil => simp [openToken]
  | append_singleton front byte _ =>
      rw [openToken_append]
      cases isBreak : isLineBreak byte with
      | true => simp [openToken, isBreak]
      | false => simp [openToken, isBreak]

/-- A cut between `front` and `back` falls inside a token. -/
def cutsToken (front back : List UInt8) : Bool :=
  match front.getLast?, back.head? with
  | some before, some after => !isLineBreak before && !isLineBreak after
  | _, _ => false

/-- How many tokens follow does not depend on what is open, only on whether
something is. -/
theorem length_tokensAfter {first second : List UInt8} (someFirst : first ≠ [])
    (someSecond : second ≠ []) (bytes : List UInt8) :
    (tokensAfter first bytes).length = (tokensAfter second bytes).length := by
  induction bytes generalizing first second with
  | nil => simp [flush_of_ne_nil, someFirst, someSecond]
  | cons byte rest ih =>
      cases isBreak : isLineBreak byte with
      | true => simp [tokensAfter_break isBreak, flush_of_ne_nil, someFirst, someSecond]
      | false =>
          rw [tokensAfter_byte isBreak, tokensAfter_byte isBreak]
          exact ih (by simp) (by simp)

/-- A cut outside every token separates the tokens. -/
theorem tokens_append_of_clean {front back : List UInt8}
    (clean : cutsToken front back = false) :
    tokens (front ++ back) = tokens front ++ tokens back := by
  unfold tokens
  rw [tokensAfter_append]
  have joined : tokensAfter (openToken [] front) back =
      flush (openToken [] front) ++ tokensAfter [] back := by
    by_cases closed : openToken [] front = []
    · simp [closed]
    · cases back with
      | nil => simp
      | cons byte rest =>
          rw [openToken_eq_nil_iff] at closed
          simp only [not_forall] at closed
          obtain ⟨before, last, notBreak⟩ := closed
          rw [Option.mem_def] at last
          simp only [cutsToken, last, List.head?_cons, notBreak, Bool.not_false,
            Bool.true_and, Bool.not_eq_false'] at clean
          rw [tokensAfter_break clean, tokensAfter_break clean, flush_nil, List.nil_append]
  rw [joined, ← List.append_assoc]
  rfl

/-- A cut inside a token makes two of it. -/
theorem length_tokens_of_cut {front back : List UInt8} (cut : cutsToken front back = true) :
    (tokens front).length + (tokens back).length = (tokens (front ++ back)).length + 1 := by
  cases last : front.getLast? with
  | none => simp [cutsToken, last] at cut
  | some before =>
      cases back with
      | nil => simp [cutsToken] at cut
      | cons after rest =>
          simp only [cutsToken, last, List.head?_cons, Bool.and_eq_true,
            Bool.not_eq_true'] at cut
          obtain ⟨notBefore, notAfter⟩ := cut
          have opened : openToken [] front ≠ [] := by
            intro closed
            have isBreak := (openToken_eq_nil_iff front).mp closed before last
            rw [notBefore] at isBreak
            exact absurd isBreak (by decide)
          have extended : openToken [] front ++ [after] ≠ [] := by simp
          have alone : [after] ≠ [] := by simp
          have same := length_tokensAfter extended alone rest
          unfold tokens
          rw [tokensAfter_append, tokensAfter_byte notAfter, tokensAfter_byte notAfter]
          simp only [tokensAfter, List.length_append, flush_of_ne_nil opened,
            List.length_singleton, List.nil_append] at same ⊢
          omega

end Nookobo.Text
