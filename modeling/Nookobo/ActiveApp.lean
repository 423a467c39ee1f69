import Nookobo.Text.CString

/-!
# The active application files

Two files name the application that should be on screen: `/tmp/current_app`
and, for older readers of the protocol, `/tmp/active_reader`. `App` is the set
of names the programs of this repository write there; the contents a program
reads are arbitrary bytes, because nothing guards the files.
-/

namespace Nookobo

open Nookobo.Text

/-- The applications the supervisor can run. -/
inductive App where
  | koreader
  | plato
  | netsurf
deriving DecidableEq, Repr

/-- The name as it is written into the files. -/
def App.name : App → List UInt8
  | .koreader => ascii "koreader"
  | .plato => ascii "plato"
  | .netsurf => ascii "netsurf"

/-- Contents of `/tmp/current_app` and `/tmp/active_reader`; `none` is a file
that cannot be opened. -/
structure AppFiles where
  currentApp : Option (List UInt8)
  activeReader : Option (List UInt8)
deriving DecidableEq, Repr

namespace AppFiles

/-- `fgets` into a 32-byte buffer followed by `buf[strcspn(buf, "\r\n")] = 0`:
the first line, at most 31 bytes of it, up to a line break or NUL. -/
def firstLine (content : List UInt8) : List UInt8 :=
  (cString (content.take 31)).takeWhile fun byte => !isLineBreak byte

/-- `get_active_app`: the second file is consulted only when the first cannot
be opened, and an empty name means KOReader. -/
def getActiveApp (files : AppFiles) : List UInt8 :=
  let line :=
    match files.currentApp, files.activeReader with
    | some content, _ => firstLine content
    | none, some content => firstLine content
    | none, none => []
  if line.isEmpty then App.koreader.name else line

/-- `find_active_app` of the app switcher, which reads the files as `get_active_app`
does. -/
def findActiveApp (files : AppFiles) : List UInt8 := getActiveApp files

/-- The line `fprintf(f, "%s\n", name)` and `echo name` leave in a file. -/
def line (app : App) : List UInt8 := app.name ++ [lineFeed]

/-- `set_active_app` after both of its writes. -/
def setActiveApp (app : App) : AppFiles where
  currentApp := some (line app)
  activeReader := some (line app)

/-- Files holding the names of applications, as their writers leave them. -/
def ofApps (currentApp activeReader : Option App) : AppFiles where
  currentApp := currentApp.map line
  activeReader := activeReader.map line

/-- The first line of a file with a name is the name. -/
@[simp] theorem firstLine_line (app : App) : firstLine (line app) = app.name := by
  cases app <;> decide

/-- No name is empty. -/
theorem name_isEmpty (app : App) : app.name.isEmpty = false := by
  cases app <;> decide

/-- Reading back files written by the programs yields the name in the first of
them that exists, or KOReader. -/
theorem getActiveApp_ofApps (currentApp activeReader : Option App) :
    getActiveApp (ofApps currentApp activeReader) =
      ((currentApp.or activeReader).getD .koreader).name := by
  cases currentApp <;> cases activeReader <;>
    simp [getActiveApp, ofApps, name_isEmpty]

end AppFiles

end Nookobo
