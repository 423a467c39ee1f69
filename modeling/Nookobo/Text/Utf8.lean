import Nookobo.Text.CString

/-!
# UTF-8 as the shim reads and writes it

`utf8Next` is the shim's own decoder: one, two or three bytes by the first byte,
no check of the continuation bytes, and the byte itself when it starts nothing
known. A string that ends inside a sequence is read as if NUL bytes followed.
`utf8` encodes the texts that stand in the source.
-/

namespace Nookobo.Text

/-- `utf8_next`: the code point at the start of a C string and the rest of it. -/
def utf8Next (text : List UInt8) : Option (Nat × List UInt8) :=
  match text with
  | [] => none
  | first :: rest =>
      let second := (rest.headD 0).toNat % 64
      let third := (rest.getD 1 0).toNat % 64
      if first = 0 then none
      else if first < 0x80 then some (first.toNat, rest)
      else if first &&& 0xE0 = 0xC0 then some (first.toNat % 32 * 64 + second, rest.drop 1)
      else if first &&& 0xF0 = 0xE0 then
        some (first.toNat % 16 * 4096 + second * 64 + third, rest.drop 2)
      else some (first.toNat, rest)

/-- The loop `while ((p = utf8_next(p, &cp)))` with a bound on its rounds. -/
def codePointsUpTo : Nat → List UInt8 → List Nat
  | 0, _ => []
  | rounds + 1, text =>
      match utf8Next text with
      | none => []
      | some (codePoint, rest) => codePoint :: codePointsUpTo rounds rest

/-- The code points of a C string; every round takes at least one byte. -/
def codePoints (text : List UInt8) : List Nat := codePointsUpTo text.length text

/-- One character of a source text, up to U+FFFF. -/
def encodeChar (char : Char) : List UInt8 :=
  let code := char.toNat
  if code < 0x80 then [code.toUInt8]
  else if code < 0x800 then [(0xC0 + code / 64).toUInt8, (0x80 + code % 64).toUInt8]
  else
    [(0xE0 + code / 4096).toUInt8, (0x80 + code / 64 % 64).toUInt8, (0x80 + code % 64).toUInt8]

/-- The UTF-8 bytes of a literal. -/
def utf8 (text : String) : List UInt8 := text.toList.flatMap encodeChar

end Nookobo.Text
