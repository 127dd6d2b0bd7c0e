import CasualDate.Components
import CasualDate.Proofs.Reckoning.Named
import Mathlib.Data.List.Induction
import Mathlib.Logic.Function.Basic

/-!
# Components after any number of changes

A run of changes is remembered by its last words only: a field has the value that was stated for it
last, else the one that was filled in last, else that of the instant at the beginning. The weekday
is no field like the others, as it follows from the date.

Components find out the weekday when they are asked for it. A `Ledger` keeps it: stated and implied
values stand in two tables, and the weekday is written anew after each change. The history is that
of the ledger (`Ledger.followsHistory_changes`), where a change is an update of a table; components
come to the same after every run, since their ledger changes with them (`Components.ledger_change`).
-/

namespace CasualDate

/-- What a calendar and a clock without leap seconds show of the instant. -/
def Instant.shown (t : Instant) : Field → Int
  | .year => t.date.year
  | .month => t.date.month
  | .day => t.date.day
  | .weekday => t.date.weekday.index
  | .hour => t.time.hour
  | .minute => t.time.minute
  | .second => t.time.clockSecond

/-! ### What a run of changes says last -/

namespace Components.Change

/-- The value that the change states for the field. -/
def stated? (f : Field) : Change → Option Int
  | assign g value => if g = f then some value else none
  | imply .. => none

/-- The value that the change fills in for the field, where none was stated. -/
def filled? (f : Field) : Change → Option Int
  | assign .. => none
  | imply g value => if g = f then some value else none

def lastStated? (f : Field) (steps : List Change) : Option Int :=
  (steps.filterMap (stated? f)).getLast?

def lastFilled? (f : Field) (steps : List Change) : Option Int :=
  (steps.filterMap (filled? f)).getLast?

variable {f : Field} {s : Change} {steps later : List Change}

theorem lastStated?_append :
    lastStated? f (steps ++ later) = (lastStated? f later <|> lastStated? f steps) := by
  simp [lastStated?, List.getLast?_append]

theorem lastFilled?_append :
    lastFilled? f (steps ++ later) = (lastFilled? f later <|> lastFilled? f steps) := by
  simp [lastFilled?, List.getLast?_append]

@[simp] theorem lastStated?_singleton : lastStated? f [s] = s.stated? f := by
  cases h : s.stated? f <;> simp [lastStated?, h]

@[simp] theorem lastFilled?_singleton : lastFilled? f [s] = s.filled? f := by
  cases h : s.filled? f <;> simp [lastFilled?, h]

theorem stated?_eq_some_iff {value : Int} : s.stated? f = some value ↔ s = assign f value := by
  cases s <;> simp [stated?]

theorem isSome_lastStated?_iff :
    (lastStated? f steps).isSome = true ↔ ∃ value, assign f value ∈ steps := by
  rw [lastStated?, List.getLast?_isSome, ← List.length_pos_iff, List.length_pos_iff_exists_mem]
  simp [stated?_eq_some_iff]

end Components.Change

open Components (Change)
open Components.Change (lastStated? lastFilled?)

/-- Stated and implied values in a table each, the weekday among them. -/
structure Ledger where
  known : Field → Option Int
  implied : Field → Option Int

namespace Ledger

def get (l : Ledger) (f : Field) : Option Int :=
  l.known f <|> l.implied f

def day? (l : Ledger) : Option Date := do
  Date.ofCivil? (← l.get .year) (← (← l.get .month).toNat?) (← (← l.get .day).toNat?)

/-- The number of the weekday of the date. -/
def weekday? (l : Ledger) : Option Int :=
  l.day?.map fun d => (d.weekday.index : Int)

/-- The ledger with the weekday of its date, or without one if it has no date. A stated weekday
stands. -/
def syncWeekday (l : Ledger) : Ledger :=
  if (l.known .weekday).isSome then l
  else { l with implied := Function.update l.implied .weekday l.weekday? }

def assign (l : Ledger) (f : Field) (value : Int) : Ledger :=
  syncWeekday ⟨Function.update l.known f (some value), Function.update l.implied f none⟩

def imply (l : Ledger) (f : Field) (value : Int) : Ledger :=
  if (l.known f).isSome then l
  else syncWeekday { l with implied := Function.update l.implied f (some value) }

def change (l : Ledger) : Change → Ledger
  | .assign f value => l.assign f value
  | .imply f value => l.imply f value

def changes (l : Ledger) (steps : List Change) : Ledger :=
  steps.foldl change l

def empty : Ledger :=
  ⟨fun _ => none, fun _ => none⟩

/-- The fields of the instant, filled in one after the other. -/
def filling (t : Instant) : List Change :=
  [Field.year, .month, .day, .hour, .minute, .second].map fun f => .imply f (t.shown f)

def ofInstant (t : Instant) : Ledger :=
  empty.changes (filling t)

/-- Year, month and day are those of the date. -/
def Names (l : Ledger) (d : Date) : Prop :=
  l.get .year = some d.year ∧ l.get .month = some (d.month : Int) ∧ l.get .day = some (d.day : Int)

/-- No field stands in both tables, and a weekday that was not stated is that of the date. -/
structure Kept (l : Ledger) : Prop where
  disjoint : ∀ f, l.known f = none ∨ l.implied f = none
  weekday : l.known .weekday = none → l.implied .weekday = l.weekday?

variable {l m : Ledger} {t : Instant} {d : Date} {f : Field} {s : Change} {steps : List Change}

theorem weekday?_congr (h : ∀ f, f ≠ .weekday → l.get f = m.get f) : l.weekday? = m.weekday? := by
  rw [weekday?, weekday?, day?, day?, h .year (by decide), h .month (by decide), h .day (by decide)]

theorem day?_eq_some_iff : l.day? = some d ↔ l.Names d := by
  simp only [day?, Names, Option.bind_eq_bind, Option.bind_eq_some_iff, Date.ofCivil?_eq_some_iff,
    Int.mem_toNat?]
  constructor
  · rintro ⟨y, hy, m, hm, _, rfl, e, he, _, rfl, rfl, rfl, rfl⟩
    exact ⟨hy, hm, he⟩
  · rintro ⟨hy, hm, he⟩
    exact ⟨_, hy, _, hm, _, rfl, _, he, _, rfl, rfl, rfl, rfl⟩

@[simp] theorem known_syncWeekday : l.syncWeekday.known = l.known := by
  unfold syncWeekday
  split <;> rfl

theorem implied_syncWeekday (hf : f ≠ .weekday) : l.syncWeekday.implied f = l.implied f := by
  unfold syncWeekday
  split
  · rfl
  · exact Function.update_of_ne hf ..

theorem get_syncWeekday (hf : f ≠ .weekday) : l.syncWeekday.get f = l.get f := by
  rw [get, get, known_syncWeekday, implied_syncWeekday hf]

theorem implied_weekday_syncWeekday (h : l.known .weekday = none) :
    l.syncWeekday.implied .weekday = l.syncWeekday.weekday? := by
  rw [weekday?_congr fun f hf => get_syncWeekday hf]
  simp [syncWeekday, h]

/-- What is stated stays so, and the last word counts. -/
theorem known_change : (l.change s).known f = (s.stated? f <|> l.known f) := by
  cases s with
  | assign g value =>
    by_cases hg : g = f
    · subst hg
      simp [change, assign, Change.stated?]
    · simp [change, assign, Change.stated?, hg, Function.update_of_ne (Ne.symm hg)]
  | imply g value =>
    simp only [change, imply, Change.stated?]
    split <;> simp

theorem implied_change (hf : f ≠ .weekday) : (l.change s).implied f =
    if (s.stated? f).isSome then none
    else if (l.known f).isSome then l.implied f
    else (s.filled? f <|> l.implied f) := by
  cases s with
  | assign g value =>
    simp only [change, assign, implied_syncWeekday hf, Function.update_apply, Change.stated?,
      Change.filled?]
    by_cases hg : g = f
    · simp [hg]
    · simp [hg, Ne.symm hg]
  | imply g value =>
    simp only [change, imply, Change.stated?, Change.filled?]
    by_cases hg : g = f
    · subst hg
      split <;> simp_all [implied_syncWeekday]
    · split <;> simp_all [implied_syncWeekday, Function.update_of_ne (Ne.symm hg)]

namespace Kept

theorem syncWeekday (h : ∀ f, l.known f = none ∨ l.implied f = none) : l.syncWeekday.Kept where
  disjoint f := by
    by_cases hf : f = .weekday
    · subst hf
      cases hknown : l.known .weekday with
      | none => exact .inl (by rw [known_syncWeekday, hknown])
      | some value => exact .inr (by simpa [Ledger.syncWeekday, hknown] using h .weekday)
    · rw [known_syncWeekday, implied_syncWeekday hf]
      exact h f
  weekday hnone := implied_weekday_syncWeekday (by rwa [known_syncWeekday] at hnone)

theorem change (h : l.Kept) (s : Change) : (l.change s).Kept := by
  cases s with
  | assign g value =>
    refine syncWeekday fun f => ?_
    by_cases hg : f = g
    · exact .inr (by simp [hg])
    · simpa [Function.update_of_ne hg] using h.disjoint f
  | imply g value =>
    simp only [Ledger.change, imply]
    split
    · exact h
    · next hknown =>
      refine syncWeekday fun f => ?_
      by_cases hg : f = g
      · exact .inl (by simpa [hg] using hknown)
      · simpa [Function.update_of_ne hg] using h.disjoint f

theorem ext (hl : l.Kept) (hm : m.Kept) (hknown : l.known = m.known)
    (himplied : ∀ f, f ≠ .weekday → l.implied f = m.implied f) : l = m := by
  have hget : ∀ f, f ≠ .weekday → l.get f = m.get f := fun f hf => by
    rw [Ledger.get, Ledger.get, hknown, himplied f hf]
  -- A weekday that was not stated follows from the other fields.
  have hweekday : l.implied .weekday = m.implied .weekday := by
    cases hstated : l.known .weekday with
    | none => rw [hl.weekday hstated, hm.weekday (hknown ▸ hstated), weekday?_congr hget]
    | some value =>
      rw [(hl.disjoint .weekday).resolve_left (by simp [hstated]),
        (hm.disjoint .weekday).resolve_left (by simp [← hknown, hstated])]
  have hall : l.implied = m.implied := funext fun f => by
    by_cases hf : f = .weekday
    · exact hf ▸ hweekday
    · exact himplied f hf
  cases l
  cases m
  exact congrArg₂ Ledger.mk hknown hall

end Kept

theorem kept_empty : empty.Kept :=
  ⟨fun _ => .inl rfl, fun _ => rfl⟩

theorem changes_append_singleton : l.changes (steps ++ [s]) = (l.changes steps).change s := by
  simp [changes]

theorem kept_changes (steps : List Change) : (empty.changes steps).Kept := by
  induction steps using List.reverseRecOn with
  | nil => exact kept_empty
  | append_singleton steps s ih =>
    rw [changes_append_singleton]
    exact ih.change s

theorem known_changes : (empty.changes steps).known f = lastStated? f steps := by
  induction steps using List.reverseRecOn with
  | nil => rfl
  | append_singleton steps s ih =>
    rw [changes_append_singleton, known_change, ih, Change.lastStated?_append,
      Change.lastStated?_singleton]

theorem implied_changes (hf : f ≠ .weekday) : (empty.changes steps).implied f =
    if (lastStated? f steps).isSome then none else lastFilled? f steps := by
  induction steps using List.reverseRecOn with
  | nil => rfl
  | append_singleton steps s ih =>
    rw [changes_append_singleton, implied_change hf, known_changes, ih,
      Change.lastStated?_append, Change.lastStated?_singleton,
      Change.lastFilled?_append, Change.lastFilled?_singleton]
    cases s.stated? f <;> cases lastStated? f steps <;> simp

theorem lastStated?_filling : lastStated? f (filling t) = none := rfl

theorem lastFilled?_filling (hf : f ≠ .weekday) : lastFilled? f (filling t) = some (t.shown f) := by
  cases f with
  | weekday => exact absurd rfl hf
  | year | month | day | hour | minute | second => rfl

/-- What is filled in stands against nothing, so a weekday that is filled in is overwritten at
once. -/
theorem Kept.imply_weekday (h : l.Kept) (value : Int) : l.imply .weekday value = l := by
  refine (h.change (.imply .weekday value)).ext h (funext fun f => known_change) fun f hf => ?_
  rw [implied_change hf]
  simp [Change.stated?, Change.filled?, Ne.symm hf]

/-- What a ledger says of the changes that were made to the fields of an instant. -/
structure FollowsHistory (t : Instant) (steps : List Change) (l : Ledger) : Prop where
  disjoint : ∀ f, l.known f = none ∨ l.implied f = none
  isSome_known_iff : ∀ f, (l.known f).isSome = true ↔ ∃ value, .assign f value ∈ steps
  get_eq : ∀ f, f ≠ .weekday →
    l.get f = some ((lastStated? f steps <|> lastFilled? f steps).getD (t.shown f))
  get_stated_weekday : ∀ value, lastStated? .weekday steps = some value →
    l.get .weekday = some value
  get_weekday : lastStated? .weekday steps = none → ∀ d, l.Names d →
    l.get .weekday = some (d.weekday.index : Int)
  get_weekday_eq_none_iff : lastStated? .weekday steps = none →
    (l.get .weekday = none ↔ ¬∃ d, l.Names d)
  imply_weekday : ∀ value, l.imply .weekday value = l

theorem followsHistory_changes (t : Instant) (steps : List Change) :
    ((ofInstant t).changes steps).FollowsHistory t steps := by
  have hrun : (ofInstant t).changes steps = empty.changes (filling t ++ steps) := by
    simp [ofInstant, changes]
  have hkept : ((ofInstant t).changes steps).Kept := by
    rw [hrun]
    exact kept_changes _
  have hknown (f : Field) : ((ofInstant t).changes steps).known f = lastStated? f steps := by
    rw [hrun, known_changes, Change.lastStated?_append, lastStated?_filling]
    simp
  have himplied (f : Field) (hf : f ≠ .weekday) (hnone : lastStated? f steps = none) :
      ((ofInstant t).changes steps).implied f = some ((lastFilled? f steps).getD (t.shown f)) := by
    rw [hrun, implied_changes hf, Change.lastStated?_append, lastStated?_filling,
      Change.lastFilled?_append, lastFilled?_filling hf, hnone]
    cases lastFilled? f steps <;> rfl
  have hweekday (hnone : lastStated? .weekday steps = none) :
      ((ofInstant t).changes steps).get .weekday = ((ofInstant t).changes steps).weekday? := by
    rw [get, hknown, hnone, hkept.weekday (by rw [hknown, hnone])]
    rfl
  refine ⟨hkept.disjoint, fun f => ?_, fun f hf => ?_, fun value hvalue => ?_, fun hnone d hd => ?_,
    fun hnone => ?_, hkept.imply_weekday⟩
  · rw [hknown, Change.isSome_lastStated?_iff]
  · cases hstated : lastStated? f steps with
    | none => simp [get, hknown, hstated, himplied f hf hstated]
    | some value => simp [get, hknown, hstated]
  · simp [get, hknown, hvalue]
  · rw [hweekday hnone, weekday?, day?_eq_some_iff.2 hd]
    rfl
  · rw [hweekday hnone, weekday?, Option.map_eq_none_iff, Option.eq_none_iff_forall_not_mem,
      not_exists]
    exact forall_congr' fun d => not_congr day?_eq_some_iff

end Ledger

namespace Entry

variable {e : Entry} {value : Int}

def known? (e : Entry) : Option Int :=
  if e.certain then some e.value else none

def implied? (e : Entry) : Option Int :=
  if e.certain then none else some e.value

theorem known?_orElse_implied? (e : Entry) : (e.known? <|> e.implied?) = some e.value := by
  cases h : e.certain <;> simp [known?, implied?, h]

theorem isSome_known? (e : Entry) : e.known?.isSome = e.certain := by
  cases h : e.certain <;> simp [known?, h]

theorem known?_eq_none_or (e : Entry) : e.known? = none ∨ e.implied? = none := by
  cases h : e.certain <;> simp [known?, implied?, h]

@[simp] theorem known?_certain : (Entry.mk value true).known? = some value := rfl

@[simp] theorem implied?_certain : (Entry.mk value true).implied? = none := rfl

@[simp] theorem known?_imply : (e.imply value).known? = e.known? := by
  cases h : e.certain <;> simp [imply, implied, known?, h]

@[simp] theorem implied?_imply :
    (e.imply value).implied? = if e.known?.isSome then e.implied? else some value := by
  cases h : e.certain <;> simp [imply, implied, known?, implied?, h]

end Entry

namespace Components

variable {c : Components} {t : Instant} {f : Field} {s : Change} {steps : List Change}

/-- The stated value of a field. -/
def known? (c : Components) : Field → Option Int
  | .year => c.year.known?
  | .month => c.month.known?
  | .day => c.day.known?
  | .weekday => c.statedWeekday
  | .hour => c.hour.known?
  | .minute => c.minute.known?
  | .second => c.second.known?

/-- The value of a field that was not stated. -/
def implied? (c : Components) : Field → Option Int
  | .year => c.year.implied?
  | .month => c.month.implied?
  | .day => c.day.implied?
  | .weekday => if c.statedWeekday.isSome then none else c.get .weekday
  | .hour => c.hour.implied?
  | .minute => c.minute.implied?
  | .second => c.second.implied?

/-- The components as a ledger. -/
def ledger (c : Components) : Ledger where
  known := c.known?
  implied := c.implied?

@[simp] theorem get_ledger : c.ledger.get f = c.get f := by
  cases f with
  | weekday => cases h : c.statedWeekday <;> simp [Ledger.get, ledger, known?, implied?, get, h]
  | _ => exact Entry.known?_orElse_implied? _

@[simp] theorem isSome_known_ledger : (c.ledger.known f).isSome = c.isCertain f := by
  cases f with
  | weekday => rfl
  | _ => exact Entry.isSome_known? _

@[simp] theorem day?_ledger : c.ledger.day? = c.day? := by
  simp only [Ledger.day?, get_ledger, get, Option.bind_eq_bind, Option.bind_some]
  rfl

theorem kept_ledger (c : Components) : c.ledger.Kept where
  disjoint f := by
    cases f with
    | weekday => cases h : c.statedWeekday <;> simp [ledger, known?, implied?, h]
    | _ => exact Entry.known?_eq_none_or _
  weekday hnone := by
    have hnone : c.statedWeekday = none := hnone
    rw [Ledger.weekday?, day?_ledger]
    simp [ledger, implied?, get, hnone]

theorem ledger_change : (c.change s).ledger = c.ledger.change s := by
  refine (kept_ledger _).ext ((kept_ledger c).change s) (funext fun f => ?_) fun f hf => ?_
  · rw [Ledger.known_change]
    cases s with
    | assign g value =>
      cases g <;> cases f <;> simp [ledger, change, assign, known?, Change.stated?]
    | imply g value =>
      cases g <;> cases f <;> simp [ledger, change, imply, known?, Change.stated?]
  · rw [Ledger.implied_change hf]
    cases s with
    | assign g value =>
      cases g <;> cases f <;>
        simp_all [ledger, change, assign, implied?, Change.stated?, Change.filled?]
    | imply g value =>
      cases g <;> cases f <;>
        simp_all [ledger, change, imply, known?, implied?, Change.stated?, Change.filled?]

theorem ledger_ofInstant (t : Instant) : (ofInstant t).ledger = Ledger.ofInstant t := by
  refine (kept_ledger _).ext (Ledger.kept_changes _) (funext fun f => ?_) fun f hf => ?_
  · rw [Ledger.ofInstant, Ledger.known_changes, Ledger.lastStated?_filling]
    cases f <;> rfl
  · rw [Ledger.ofInstant, Ledger.implied_changes hf, Ledger.lastStated?_filling,
      Ledger.lastFilled?_filling hf]
    cases f with
    | weekday => exact absurd rfl hf
    | year | month | day | hour | minute | second => rfl

theorem ledger_changes (c : Components) (steps : List Change) :
    (c.changes steps).ledger = c.ledger.changes steps := by
  induction steps generalizing c with
  | nil => rfl
  | cons s steps ih => exact (ih (c.change s)).trans (congrArg (·.changes steps) ledger_change)

/-- The components of an instant and its ledger say the same after every run of changes, and that is
what the changes said last. -/
theorem changes_followHistory (t : Instant) (steps : List Change) :
    let c := (ofInstant t).changes steps
    let l := (Ledger.ofInstant t).changes steps
    c.ledger = l ∧ (∀ f, c.get f = l.get f ∧ c.isCertain f = (l.known f).isSome) ∧
      l.FollowsHistory t steps := by
  intro c l
  have hledger : c.ledger = l := by rw [ledger_changes, ledger_ofInstant]
  refine ⟨hledger, fun f => ?_, Ledger.followsHistory_changes t steps⟩
  rw [← hledger, get_ledger, isSome_known_ledger]
  exact ⟨rfl, rfl⟩

end Components

end CasualDate
