import Nookobo.Shim.Drawing

/-!
# The on-screen keyboard: layout and pictures

`buildOskLayout` is the table of keys for a language, row by row as the source
fills it: rectangle, the three labels, the action, and the code points of a
character key. `drawOsk` is the picture of the whole keyboard, `drawOskKey` that of
one key.
-/

namespace Nookobo.Shim

open Nookobo.Semantics Nookobo.Text

/-- `osk_lang`: 0 is English, 1 is Russian. -/
inductive Language where
  | english
  | russian
deriving DecidableEq, Repr

/-- The other layout. -/
def Language.toggle : Language → Language
  | .english => .russian
  | .russian => .english

/-- `enum KeyAction`. -/
inductive KeyAction where
  | char
  | backspace
  | enter
  | space
  | shift
  | symbols
  | lang
  | hide
  | clear
  | dotcom
deriving DecidableEq, Repr

/-- `struct OSKKey`; the fields the source leaves out are zero. -/
structure OskKey where
  x : Int
  y : Int
  w : Int
  h : Int
  normalLabel : List UInt8
  shiftLabel : List UInt8
  symLabel : List UInt8
  action : KeyAction
  sym : Nat := 0
  unicodeNorm : Nat := 0
  unicodeShift : Nat := 0
  unicodeSym : Nat := 0
  bg : UInt16 := colorKeyBg
  fg : UInt16 := colorBlack
deriving DecidableEq, Repr

/-! ## Layout -/

/-- A key with an action of its own and one label in all modes. -/
def specialKey (x y w h : Int) (label : String) (action : KeyAction) : OskKey where
  x := x
  y := y
  w := w
  h := h
  normalLabel := utf8 label
  shiftLabel := utf8 label
  symLabel := utf8 label
  action := action
  bg := colorSpecialBg

/-- The labels of a character key and the code points it sends. -/
structure Cap where
  norm : String
  shift : String
  sym : String
  unicodeNorm : Nat
  unicodeShift : Nat
  unicodeSym : Nat

/-- A row of character keys, `step` pixels apart. -/
def charRow (x step y w h : Int) (caps : List Cap) : List OskKey :=
  caps.mapIdx fun index cap =>
    { x := x + index * step
      y := y
      w := w
      h := h
      normalLabel := utf8 cap.norm
      shiftLabel := utf8 cap.shift
      symLabel := utf8 cap.sym
      action := .char
      sym := cap.unicodeNorm
      unicodeNorm := cap.unicodeNorm
      unicodeShift := cap.unicodeShift
      unicodeSym := cap.unicodeSym }

/-- The first byte of a label, as the English rows take their code points. -/
def firstByte (label : String) : Nat := ((utf8 label).headD 0).toNat

/-- A row of the English layout, given by the labels of its three modes. -/
def asciiCaps (norm shift sym : List String) : List Cap :=
  (norm.zip (shift.zip sym)).map fun (norm, shift, sym) =>
    ⟨norm, shift, sym, firstByte norm, firstByte shift, firstByte sym⟩

/-- A row of the Russian layout: labels and, separately, code points. -/
def cyrillicCaps (norm shift : List String) (unicodeNorm unicodeShift : List Nat) : List Cap :=
  ((norm.zip shift).zip (unicodeNorm.zip unicodeShift)).map
    fun ((norm, shift), (unicodeNorm, unicodeShift)) =>
      ⟨norm, shift, norm, unicodeNorm, unicodeShift, unicodeNorm⟩

/-- The two keys of the header bar. -/
def headerKeys : List OskKey :=
  [specialKey 12 1275 180 46 "Hide Kbd" .hide, specialKey 1212 1275 180 46 "Clear" .clear]

/-- The Backspace key, the same in both layouts. -/
def backspaceKey : OskKey :=
  { specialKey 1172 1328 220 98 "Backsp" .backspace with sym := 8, unicodeNorm := 8 }

/-- The shift key shows its state. -/
def shiftKey (w : Int) : OskKey :=
  { specialKey 12 1640 w 98 "Shift" .shift with shiftLabel := utf8 "SHIFT" }

/-- The key that switches to the symbols and back. -/
def symbolsKey (letters : String) : OskKey :=
  { specialKey 12 1744 170 104 "?123" .symbols with symLabel := utf8 letters }

/-- The Space key with the label of its layout. -/
def spaceKey (label : String) : OskKey :=
  { specialKey 338 1744 540 104 label .space with sym := 32, unicodeNorm := 32, bg := colorKeyBg }

/-- The Enter key with the label of its layout. -/
def enterKey (label : String) : OskKey :=
  { specialKey 1084 1744 308 104 label .enter with sym := 13, unicodeNorm := 13 }

/-- The English keys, row by row. -/
def englishKeys : List OskKey :=
  charRow 12 116 1328 110 98
      (asciiCaps ["1", "2", "3", "4", "5", "6", "7", "8", "9", "0"]
        ["!", "@", "#", "$", "%", "^", "&", "*", "(", ")"]
        ["[", "]", "\x7b", "\x7d", "#", "%", "^", "*", "+", "="]) ++
    [backspaceKey] ++
    charRow 12 138 1432 130 98
      (asciiCaps ["q", "w", "e", "r", "t", "y", "u", "i", "o", "p"]
        ["Q", "W", "E", "R", "T", "Y", "U", "I", "O", "P"]
        ["~", "-", "_", "=", "+", "\\", "|", "<", ">", "/"]) ++
    charRow 80 138 1536 130 98
      (asciiCaps ["a", "s", "d", "f", "g", "h", "j", "k", "l"]
        ["A", "S", "D", "F", "G", "H", "J", "K", "L"]
        [":", ";", "\"", "'", "?", "!", "@", "$", "&"]) ++
    [shiftKey 170] ++
    charRow 192 134 1640 126 98
      (asciiCaps ["z", "x", "c", "v", "b", "n", "m"] ["Z", "X", "C", "V", "B", "N", "M"]
        ["(", ")", "[", "]", "\x7b", "\x7d", "_"]) ++
    charRow 1130 136 1640 126 98 (asciiCaps [".", "/"] [",", "?"] [".", "/"]) ++
    [symbolsKey "ABC", specialKey 190 1744 140 104 "EN" .lang, spaceKey "Space",
      specialKey 886 1744 190 104 ".com" .dotcom, enterKey "Go / Enter"]

/-- The Russian keys, row by row. -/
def russianKeys : List OskKey :=
  charRow 12 116 1328 110 98
      (asciiCaps ["1", "2", "3", "4", "5", "6", "7", "8", "9", "0"]
        ["1", "2", "3", "4", "5", "6", "7", "8", "9", "0"]
        ["1", "2", "3", "4", "5", "6", "7", "8", "9", "0"]) ++
    [backspaceKey] ++
    charRow 12 125 1432 118 98
      (cyrillicCaps ["й", "ц", "у", "к", "е", "н", "г", "ш", "щ", "з", "х"]
        ["Й", "Ц", "У", "К", "Е", "Н", "Г", "Ш", "Щ", "З", "Х"]
        [0x0439, 0x0446, 0x0443, 0x043A, 0x0435, 0x043D, 0x0433, 0x0448, 0x0449, 0x0437, 0x0445]
        [0x0419, 0x0426, 0x0423, 0x041A, 0x0415, 0x041D, 0x0413, 0x0428, 0x0429, 0x0417,
          0x0425]) ++
    charRow 12 125 1536 118 98
      (cyrillicCaps ["ф", "ы", "в", "а", "п", "р", "о", "л", "д", "ж", "э"]
        ["Ф", "Ы", "В", "А", "П", "Р", "О", "Л", "Д", "Ж", "Э"]
        [0x0444, 0x044B, 0x0432, 0x0430, 0x043F, 0x0440, 0x043E, 0x043B, 0x0434, 0x0436, 0x044D]
        [0x0424, 0x042B, 0x0412, 0x0410, 0x041F, 0x0420, 0x041E, 0x041B, 0x0414, 0x0416,
          0x042D]) ++
    [shiftKey 140] ++
    charRow 160 123 1640 116 98
      (cyrillicCaps ["я", "ч", "с", "м", "и", "т", "ь", "б", "ю", "ё"]
        ["Я", "Ч", "С", "М", "И", "Т", "Ь", "Б", "Ю", "Ё"]
        [0x044F, 0x0447, 0x0441, 0x043C, 0x0438, 0x0442, 0x044C, 0x0431, 0x044E, 0x0451]
        [0x042F, 0x0427, 0x0421, 0x041C, 0x0418, 0x0422, 0x042C, 0x0411, 0x042E, 0x0401]) ++
    [symbolsKey "АБВ", specialKey 190 1744 140 104 "RU" .lang, spaceKey "Пробел",
      specialKey 886 1744 190 104 ".ru" .dotcom, enterKey "Ввод"]

/-- `build_osk_layout`. -/
def buildOskLayout : Language → List OskKey
  | .english => headerKeys ++ englishKeys
  | .russian => headerKeys ++ russianKeys

/-! ## Modes and pictures -/

/-- The variables the keyboard's picture depends on. -/
structure OskMode where
  lang : Language := .english
  shift : Bool := false
  symbols : Bool := false
deriving DecidableEq, Repr

/-- The label a key shows. -/
def OskKey.label (key : OskKey) (mode : OskMode) : List UInt8 :=
  if mode.symbols then key.symLabel else if mode.shift then key.shiftLabel else key.normalLabel

/-- The code point a character key sends. -/
def OskKey.unicode (key : OskKey) (mode : OskMode) : Nat :=
  if mode.symbols then key.unicodeSym
  else if mode.shift then key.unicodeShift else key.unicodeNorm

/-- `draw_osk_key`. -/
def drawOskKey (font : Font) (mode : OskMode) (key : OskKey) (pressed : Bool) : Layer UInt16 :=
  let bg := if pressed then colorPressedBg else key.bg
  let fg := if pressed then colorPressedFg else key.fg
  let label := key.label mode
  let scale := if label.length > 7 then 1 else if label.length > 3 then 2 else 3
  .stack
    [fbDrawRect key.x key.y key.w key.h bg,
      fbDrawRectOutline key.x key.y key.w key.h 2 colorBorder,
      fbDrawUtf8StringCentered font key.x key.y key.w key.h label scale fg bg]

/-- The text in the input box: a hint, or the last 58 bytes of the address. -/
def previewText (lang : Language) (urlFocused : Bool) (url : List UInt8) : List UInt8 :=
  if !urlFocused then
    match lang with
    | .english => utf8 "Tap keys to type in the page field..."
    | .russian => utf8 "Введите текст в поле страницы..."
  else if url.isEmpty then
    match lang with
    | .english => utf8 "Tap keys to type URL / Search query..."
    | .russian => utf8 "Введите адрес или поисковый запрос..."
  else
    let shown := url.take 127
    if shown.length > 58 then shown.drop (shown.length - 58) else shown

/-- `draw_osk_input_preview`. -/
def drawOskInputPreview (font : Font) (lang : Language) (urlFocused : Bool) (url : List UInt8) :
    Layer UInt16 :=
  let fg := if !urlFocused || url.isEmpty then colorSpecialBg else colorBlack
  .stack
    [fbDrawRect 202 1275 1000 46 colorWhite, fbDrawRectOutline 202 1275 1000 46 2 colorBlack,
      fbDrawUtf8String font 216 1282 (previewText lang urlFocused url) 2 fg colorWhite]

/-- `draw_osk`, without the rebuilding of the layout. -/
def drawOsk (font : Font) (mode : OskMode) (urlFocused : Bool) (url : List UInt8) :
    Layer UInt16 :=
  .stack
    ([fbDrawRect 0 oskY oskW oskH colorBg, fbDrawRect 0 oskY oskW 3 colorBlack,
        drawOskInputPreview font mode.lang urlFocused url] ++
      (buildOskLayout mode.lang).map fun key => drawOskKey font mode key false)

end Nookobo.Shim
