import CasualDate.Components
import CasualDate.Ordinal

/-!
# Recognizers

A recognizer adds candidates of its own: wherever its pattern fits, it gives the components of a
date or declines. A table goes from locales to the recognizers that the finder of a locale starts
with; the language of expressions is English in every locale.
-/

namespace CasualDate

structure Context where
  text : String
  /-- The instant that relative expressions start from. -/
  reference : Instant
  /-- The current instant. -/
  now : Instant
  /-- Whether dates without a stated year are moved out of the past. -/
  forward : Bool := false

structure Recognizer where
  name : String
  pattern : Pattern
  /-- The components for a match. -/
  extract : Context → Match → Option Components

namespace Recognizer

/-- Christmas is the 25th of December. -/
def holiday : Recognizer where
  name := "holiday"
  pattern := (Trigger.word "christmas").pattern
  extract ctx _ := some (((Components.ofInstant ctx.reference).assign .day 25).assign .month 12)

/-- An ordinal is that day of the current month, whatever the text is about. -/
def ordinalDay : Recognizer where
  name := "ordinal-day"
  pattern := Ordinal.trigger.pattern
  extract ctx m := (Ordinal.read? (String.ofList m.text)).map fun day =>
    ((Components.ofInstant ctx.reference).assign .day day).assign .month ctx.now.date.month

/-- The recognizers that every resolver has. -/
def builtin : List Recognizer :=
  [holiday, ordinalDay]

/-- A recognizer for a word, which changes the components of the reference. -/
def ofWord (name word : String) (changes : List Components.Change) : Recognizer where
  name := name
  pattern := (Trigger.word word).pattern
  extract ctx _ := some ((Components.ofInstant ctx.reference).changes changes)

/-- A recognizer for a word, which declines every match. -/
def declining (name word : String) : Recognizer where
  name := name
  pattern := (Trigger.word word).pattern
  extract _ _ := none

end Recognizer

/-- Locales in normal form with their recognizers, the ones set last in front. -/
structure Locales where
  entries : List (String × List Recognizer)

namespace Locales

/-- The locale in lower case with hyphens, without space around it. -/
def normalize (locale : String) : String :=
  Text.lower (String.ofList ((Text.trim locale).toList.map fun c => if c = '_' then '-' else c))

def insert (l : Locales) (locale : String) (recognizers : List Recognizer) : Locales :=
  ⟨(normalize locale, recognizers) :: l.entries⟩

def standard : Locales :=
  ((((Locales.mk []).insert "en" []).insert "en-us" []).insert "en-gb" [])

/-- The recognizers of a locale, none if the table does not have it. -/
def get (l : Locales) (locale : String) : List Recognizer :=
  ((l.entries.find? (·.1 = normalize locale)).map Prod.snd).getD []

end Locales

end CasualDate
