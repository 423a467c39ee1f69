import Nookobo.Text.Scan

/-!
# The remote keyboard daemon

`nook-webkey` answers HTTP requests and turns the path of a request into one
write to the FIFO of the browser shim. `handleClient` is the whole handler: the
two words `sscanf` takes from the request, the routes in the order they are
tried, the decoding of the parameter into a bounded buffer and the command line
built from it.

Buffers are byte lists; a C string stops at the first NUL of its buffer.
-/

namespace Nookobo.Webkey

open Nookobo.Text

/-! ## Percent-decoding -/

/-- The value of a hexadecimal digit, if the byte is one. -/
def hexDigit (byte : UInt8) : Option UInt8 :=
  if 48 ≤ byte && byte ≤ 57 then some (byte - 48)
  else if 65 ≤ byte && byte ≤ 70 then some (byte - 55)
  else if 97 ≤ byte && byte ≤ 102 then some (byte - 87)
  else none

/-- The bytes with a meaning of their own. -/
def percent : UInt8 := 37
def plus : UInt8 := 43
def space : UInt8 := 32

/-- The two digits of an escape at the start of `src`, with what follows it. -/
def escape? (src : List UInt8) : Option (UInt8 × UInt8 × List UInt8) :=
  match src with
  | mark :: high :: low :: rest =>
      if mark = percent then
        match hexDigit high, hexDigit low with
        | some high, some low => some (high, low, rest)
        | _, _ => none
      else none
  | _ => none

/-- The loop of `url_decode` with room for `room` more bytes. -/
def urlDecodeLoop : Nat → List UInt8 → List UInt8
  | 0, _ => []
  | _ + 1, [] => []
  | room + 1, byte :: rest =>
      if byte = 0 then []
      else
        match escape? (byte :: rest) with
        | some (high, low, rest) => (16 * high + low) :: urlDecodeLoop room rest
        | none =>
            if byte = plus then space :: urlDecodeLoop room rest
            else byte :: urlDecodeLoop room rest

/-- `url_decode`: the bytes stored in `dst` before the final NUL. -/
def urlDecode (src : List UInt8) (maxLen : Nat) : List UInt8 :=
  urlDecodeLoop (maxLen - 1) src

/-! ## Routes -/

/-- The routes whose parameter is decoded and put on a command line. -/
inductive Route where
  | cmd
  | key
  | text
  | url
deriving DecidableEq, Repr

namespace Route

/-- What the path of the request starts with. -/
def path : Route → List UInt8
  | .cmd => ascii "/cmd?k="
  | .key => ascii "/key?c="
  | .text => ascii "/text?s="
  | .url => ascii "/url?u="

/-- The size of the buffer the parameter is decoded into. -/
def capacity : Route → Nat
  | .cmd => 64
  | .key => 32
  | .text => 512
  | .url => 512

/-- What the command line starts with. -/
def tag : Route → List UInt8
  | .cmd => ascii "KEY:"
  | .key => ascii "TEXT:"
  | .text => ascii "TEXT:"
  | .url => ascii "URL:"

/-- The size of the buffer the command line is printed into. -/
def lineSize : Route → Nat
  | .cmd => 128
  | .key => 64
  | .text => 600
  | .url => 600

/-- The command line: `snprintf` of tag, decoded parameter and newline, as far as
`fifo_write` sees it. -/
def command (route : Route) (parameter : List UInt8) : List UInt8 :=
  (route.tag ++ (cString (urlDecode parameter route.capacity) ++ [lineFeed])).take
    (route.lineSize - 1)

end Route

/-! ## The click route -/

/-- The number behind `mark` in the path, 0 when it is missing. -/
def coordinate (mark : String) (path : List UInt8) : Int :=
  match strstr (ascii mark) path with
  | some found => atoi (found.drop 2)
  | none => 0

/-- The command for a click. -/
def clickCommand (path : List UInt8) : List UInt8 :=
  ascii ("CLICK:" ++ toString (coordinate "x=" path) ++ "," ++
    toString (coordinate "y=" path) ++ "\n")

/-! ## Requests -/

/-- The answers of the server. -/
inductive Response where
  | htmlPage
  | ok
  | notFound
deriving DecidableEq, Repr

/-- The answer to a request and the command written to the FIFO, if any. -/
structure Outcome where
  response : Response
  command : Option (List UInt8)
deriving DecidableEq, Repr

/-- The parameter routes, in the order the handler compares them. -/
def routes : List Route := [.cmd, .key, .text, .url]

/-- The dispatch on the path. -/
def handlePath (path : List UInt8) : Outcome :=
  if path = ascii "/" ∨ path = ascii "/index.html" then ⟨.htmlPage, none⟩
  else
    match routes.find? fun route => route.path.isPrefixOf path with
    | some route => ⟨.ok, some (route.command (path.drop route.path.length))⟩
    | none =>
        if (ascii "/click?").isPrefixOf path then ⟨.ok, some (clickCommand path)⟩
        else ⟨.notFound, none⟩

/-- One `%<width>s` conversion: the word and the input behind it. -/
def scanWord (width : Nat) (input : List UInt8) : List UInt8 × List UInt8 :=
  let body := input.dropWhile isSpace
  let word := (body.takeWhile fun byte => !isSpace byte).take width
  (word, body.drop word.length)

/-- `handle_client` on the bytes of one `read`. -/
def handleClient (request : List UInt8) : Option Outcome :=
  if request.isEmpty then none
  else
    let buffer := cString (request.take 2047)
    let afterMethod := (scanWord 15 buffer).2
    some (handlePath (scanWord 1023 afterMethod).1)

end Nookobo.Webkey
