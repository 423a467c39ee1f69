import Nookobo.Text.CString

/-!
# Scanning C strings

The standard library functions by which the programs pick a request line, a
coordinate pair or a substring out of a text. Numbers are read in 32-bit
arithmetic.
-/

namespace Nookobo.Text

/-- `isspace` in the C locale. -/
def isSpace (byte : UInt8) : Bool := byte == 32 || 9 ≤ byte && byte ≤ 13

/-- `isdigit`. -/
def isDigit (byte : UInt8) : Bool := 48 ≤ byte && byte ≤ 57

/-- `strstr`: the part of `text` from the first occurrence of `needle` on. -/
def strstr (needle : List UInt8) : List UInt8 → Option (List UInt8)
  | [] => if needle.isEmpty then some [] else none
  | byte :: rest =>
      if needle.isPrefixOf (byte :: rest) then some (byte :: rest) else strstr needle rest

/-- One `%d` conversion: white space, a sign, digits. -/
def scanInt (text : List UInt8) : Option (Int × List UInt8) :=
  let body := text.dropWhile isSpace
  let negative := body.head? == some 45
  let unsigned := if negative || body.head? == some 43 then body.drop 1 else body
  let digits := unsigned.takeWhile isDigit
  let magnitude := digits.foldl (fun value byte => 10 * value + ((byte.toNat : Int) - 48)) 0
  if digits.isEmpty then none
  else
    some (Int.bmod (if negative then -magnitude else magnitude) 0x100000000,
      unsigned.drop digits.length)

/-- `atoi`: 0 when there is no number. -/
def atoi (text : List UInt8) : Int := ((scanInt text).map Prod.fst).getD 0

/-- `sscanf(text, "%d,%d", ...) == 2`. -/
def scanPair (text : List UInt8) : Option (Int × Int) :=
  match scanInt text with
  | some (first, 44 :: rest) => (scanInt rest).map fun second => (first, second.1)
  | _ => none

end Nookobo.Text
