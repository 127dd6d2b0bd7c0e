import CasualDate.Components

/-!
# Candidates

A candidate is a span of a text that denotes a date. Of two that overlap the longer one is kept,
the earlier one if they are equally long; a candidate without a stated year can be moved into the
next year.
-/

namespace CasualDate

inductive Source where
  | grammar
  | recognizer (name : String)
deriving DecidableEq

structure Candidate where
  /-- The byte at which the span begins. -/
  index : Nat
  text : String
  fields : Components
  source : Source
deriving DecidableEq

namespace Candidate

def stop (c : Candidate) : Nat :=
  c.index + c.text.utf8ByteSize

def date? (c : Candidate) : Option Instant :=
  c.fields.date?

/-- Whether `c`, which does not begin earlier, overlaps `kept`. -/
def overlaps (kept c : Candidate) : Bool :=
  c.index < kept.stop

def isLonger (c kept : Candidate) : Bool :=
  kept.text.utf8ByteSize < c.text.utf8ByteSize

/-- The candidates of an ordered list that are kept when `kept` is the last one so far. -/
def collapseFrom (kept : Candidate) : List Candidate → List Candidate
  | [] => [kept]
  | c :: cs =>
    if kept.overlaps c then
      if c.isLonger kept then collapseFrom c cs else collapseFrom kept cs
    else kept :: collapseFrom c cs

/-- The candidates of an ordered list without those that give way to a longer or earlier one. -/
def collapse : List Candidate → List Candidate
  | [] => []
  | c :: cs => collapseFrom c cs

/-- What became of a candidate that overlaps the last one kept. -/
inductive Clash where
  | replaced (new old : Candidate)
  | dropped (new old : Candidate)
deriving DecidableEq

/-- The clashes in the order in which `collapseFrom` settles them. -/
def clashesFrom (kept : Candidate) : List Candidate → List Clash
  | [] => []
  | c :: cs =>
    if kept.overlaps c then
      if c.isLonger kept then .replaced c kept :: clashesFrom c cs
      else .dropped c kept :: clashesFrom kept cs
    else clashesFrom c cs

def clashes : List Candidate → List Clash
  | [] => []
  | c :: cs => clashesFrom c cs

/-- Whether the year was not stated and the date lies before the reference. -/
def isPast (reference : Instant) (c : Candidate) : Bool :=
  !c.fields.isCertain .year && c.date?.any (·.isBefore reference)

def nextYear (c : Candidate) : Candidate :=
  { c with fields := c.fields.imply .year (c.fields.year.value + 1) }

/-- A candidate in the past is moved into the next year, unless that has no such day. -/
def forward (reference : Instant) (c : Candidate) : Candidate :=
  if c.isPast reference && c.nextYear.date?.isSome then c.nextYear else c

end Candidate

end CasualDate
