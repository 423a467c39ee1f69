import Mathlib.Data.List.Forall2
import Nookobo.Text.Words

/-!
# Sections of an init script

A line that begins with `service`, `on` or `import` begins a section, and the lines behind it are
its options. A script is changed here by putting lines behind some of the `service` lines: what
that does to the sections can be read off the lines where it was done, one by one.
-/

namespace Nookobo.Boot

open Nookobo.Text

/-- A section: its first line, and the others. -/
structure Section where
  header : List (List Char)
  options : List (List (List Char))
deriving DecidableEq

/-- The keyword of a service. -/
def service : List Char := "service".toList

/-- The option that keeps a service from being started. -/
def disabled : List Char := "disabled".toList

/-- The words that begin a section. -/
def keywords : List (List Char) := [service, "on".toList, "import".toList]

/-- The line begins a section. -/
def isHeader (line : List (List Char)) : Bool := line.head?.any (· ∈ keywords)

/-- The sections from a section that has begun. -/
def sectionsFrom : Section → List (List (List Char)) → List Section
  | current, [] => [current]
  | current, line :: more =>
      if isHeader line then current :: sectionsFrom ⟨line, []⟩ more
      else sectionsFrom ⟨current.header, current.options ++ [line]⟩ more

/-- The sections of a text. What stands in front of the first keyword is a section of its own. -/
def sections (text : List Char) : List Section :=
  sectionsFrom ⟨[], []⟩ (activeLines (linesOf text))

/-- The section defines the service. -/
def Section.defines (section_ : Section) (name : List Char) : Bool :=
  section_.header.take 2 = [service, name]

/-- The option is `disabled`. -/
def isDisabled (option : List (List Char)) : Bool := option.head? = some disabled

/-- One of the options is `disabled`. -/
def Section.isDisabled (section_ : Section) : Bool := section_.options.any Boot.isDisabled

/-- The text defines the service exactly once. -/
def DefinedOnce (text name : List Char) : Prop :=
  ((sections text).filter (·.defines name)).length = 1

/-- The service is disabled in its section. -/
def DisabledIn (text name : List Char) : Prop :=
  ∃ section_ ∈ sections text, section_.defines name = true ∧ section_.isDisabled = true

/-- The section has its options, and no others unless its name is listed and they disable it. -/
structure Kept (listed : List (List Char)) (old new : Section) : Prop where
  header : new.header.take 2 = old.header.take 2
  options : new.options = old.options ∨
    (∃ name ∈ listed, old.defines name = true) ∧
      List.Sublist old.options new.options ∧
      new.options.filter (!isDisabled ·) = old.options.filter (!isDisabled ·)

end Nookobo.Boot
