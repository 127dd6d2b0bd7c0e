import CasualDate.Candidate
import CasualDate.Finder.Scan
import CasualDate.Recognizer

/-!
# Finding dates in a text

The expressions of the text and the matches of the recognizers are put together, those that are no
date dropped, and overlaps settled.
-/

namespace CasualDate

/-- A match of a recognizer, with the components it gave unless it declined. -/
structure Attempt where
  name : String
  index : Nat
  text : String
  fields : Option Components

def Recognizer.attempts (r : Recognizer) (ctx : Context) : List Attempt :=
  (r.pattern.findAll ctx.text.toList).map fun m =>
    ⟨r.name, m.index, String.ofList m.text, r.extract ctx m⟩

def Attempt.candidate? (a : Attempt) : Option Candidate :=
  a.fields.map fun fields => ⟨a.index, a.text, fields, .recognizer a.name⟩

def Step.candidate? : Step → Option Candidate
  | .found index text e value => some ⟨index, text, .ofStated value e.stated, .grammar⟩
  | _ => none

/-- Finds dates by the expressions of the language and by recognizers, in their order. -/
structure Finder where
  recognizers : List Recognizer

namespace Finder

def attempts (f : Finder) (ctx : Context) : List Attempt :=
  f.recognizers.flatMap (·.attempts ctx)

/-- All candidates, in the order in which they are found. -/
def proposals (f : Finder) (ctx : Context) : Except Failure (List Candidate) :=
  let steps := Step.scan ctx.text ctx.reference
  match steps.findSome? Step.breakdown? with
  | some cause => .error (.broken cause)
  | none => .ok (steps.filterMap Step.candidate? ++ (f.attempts ctx).filterMap Attempt.candidate?)

/-- The candidates that are dates, in the order of the text. -/
def ordered (candidates : List Candidate) : List Candidate :=
  (candidates.filter (·.date?.isSome)).mergeSort fun a b => a.index ≤ b.index

/-- The dates of a text, without overlaps. -/
def settle (ctx : Context) (candidates : List Candidate) : List Candidate :=
  let kept := Candidate.collapse (ordered candidates)
  if ctx.forward then kept.map (·.forward ctx.reference) else kept

def find (f : Finder) (ctx : Context) : Except Failure (List Candidate) :=
  (f.proposals ctx).map (settle ctx)

def findDate (f : Finder) (ctx : Context) : Except Failure (Option Instant) :=
  (f.find ctx).map fun candidates => candidates.head?.bind (·.date?)

/-- The finder as a text: its recognizers by name. -/
def describe (f : Finder) : String :=
  "Grammar \x7b variant: CasualEnglish, recognizers: [" ++
    ", ".intercalate (f.recognizers.map fun r => Text.quoted r.name) ++ "] \x7d"

end Finder

end CasualDate
