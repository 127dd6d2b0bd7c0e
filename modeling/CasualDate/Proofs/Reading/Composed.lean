import CasualDate.Proofs.Reading.Moment
import Mathlib.Control.Monad.Basic

/-!
# Readers put together

A reader without the proof that it uses words up is a `Reading`. Readings are put together by `do`,
`<|>` and `ifReads`; each reader is shown to be such a composition of readings of single words
(`Number.reading_parse?` up to `MomentExpr.reading_parse?`). What holds of single words and is kept
by composition then holds of every reader.
-/

namespace CasualDate

/-- A reader without the proof that it uses words up. -/
abbrev Reading (α : Type) := StateT (List Word) Option α

variable {α β : Type}

def reading (reader : (ws : List Word) → Option (Parsed α ws)) : Reading α := fun ws =>
  (reader ws).map fun p => (p.value, p.rest)

namespace Reading

/-- Reads a word that has a value. -/
def word (f : Word → Option α) : Reading α
  | [] => none
  | w :: ws => (f w).map (·, ws)

/-- Reads the one word. -/
def exactly (w : Word) : Reading Unit :=
  word fun v => if v = w then some () else none

def skip (w : Word) : Reading Unit := fun ws =>
  some ((), skipWord w ws)

/-- Goes on with `g` if `f` reads something, and otherwise with `h` from where `f` began. -/
def ifReads (f : Reading α) (g : α → Reading β) (h : Reading β) : Reading β := fun ws =>
  match f.run ws with
  | some (a, rest) => (g a).run rest
  | none => h.run ws

def perhaps (f : Reading α) : Reading (Option α) :=
  ifReads f (fun a => pure (some a)) (pure none)

/-- Goes on only if the next word, if there is one, is not of the kind. -/
def unlessNext (p : Word → Bool) : Reading Unit := fun ws =>
  if ws.head?.any p then none else some ((), ws)

def option (o : Option α) : Reading α := fun ws =>
  o.map (·, ws)

section Run

variable {ws : List Word} {w : Word}

@[simp] theorem run_word_nil (f : Word → Option α) : (word f).run [] = none := rfl

@[simp] theorem run_word_cons (f : Word → Option α) : (word f).run (w :: ws) = (f w).map (·, ws) := rfl

@[simp] theorem run_failure : (failure : Reading α).run ws = none := rfl

@[simp] theorem run_exactly_nil : (exactly w).run [] = none := rfl

@[simp] theorem run_exactly_cons (v : Word) :
    (exactly v).run (w :: ws) = if w = v then some ((), ws) else none := by
  rw [exactly, run_word_cons]
  split <;> rfl

theorem run_exactly_eq_none (h : ∀ rest, ws = w :: rest → False) : (exactly w).run ws = none := by
  cases ws with
  | nil => rfl
  | cons v ws =>
    rw [run_exactly_cons, if_neg]
    rintro rfl
    exact h ws rfl

theorem run_exactly_eq_none_of_head? (h : ws.head? ≠ some w) : (exactly w).run ws = none := by
  refine run_exactly_eq_none fun rest heq => h ?_
  rw [heq]
  rfl

@[simp] theorem run_skip : (skip w).run ws = some ((), skipWord w ws) := rfl

@[simp] theorem run_unlessNext (p : Word → Bool) :
    (unlessNext p).run ws = if ws.head?.any p then none else some ((), ws) := rfl

@[simp] theorem run_option (o : Option α) : (option o).run ws = o.map (·, ws) := rfl

theorem run_ifReads (f : Reading α) (g : α → Reading β) (h : Reading β) :
    (ifReads f g h).run ws =
      match f.run ws with
      | some (a, rest) => (g a).run rest
      | none => h.run ws := rfl

@[simp] theorem run_orElse (f g : Reading α) : (f <|> g).run ws = (f.run ws).or (g.run ws) :=
  Option.orElse_eq_or

theorem run_of_none {f : Reading α} (h : f.run ws = none) (g : α → Reading β) :
    (f >>= g).run ws = none := by
  simp [h]

end Run

end Reading

open Reading

theorem run_reading (reader : (ws : List Word) → Option (Parsed α ws)) (ws : List Word) :
    (reading reader).run ws = (reader ws).map fun p => (p.value, p.rest) := rfl

theorem reads_iff {reader : (ws : List Word) → Option (Parsed α ws)} {ws rest : List Word} {a : α} :
    Reads reader ws a rest ↔ (reading reader).run ws = some (a, rest) :=
  ⟨fun ⟨_, h⟩ => by simp [run_reading, h], fun h => .of_map h⟩

theorem run_reading_eq_none {reader : (ws : List Word) → Option (Parsed α ws)} {ws : List Word} :
    (reading reader).run ws = none ↔ reader ws = none := by
  simp [run_reading]

@[simp] theorem run_reading_nil (reader : (ws : List Word) → Option (Parsed α ws)) :
    (reading reader).run [] = none := by
  cases h : reader [] with
  | none => rw [run_reading, h]; rfl
  | some p => exact absurd p.shorter (Nat.not_lt_zero _)

theorem run_word (f : Word → Option α) (ws : List Word) :
    (word f).run ws = (readWord? f ws).map fun p => (p.value, p.rest) := by
  cases ws with
  | nil => rfl
  | cons w ws => simp [readWord?, Function.comp_def]

theorem reading_readWord? (f : Word → Option α) : reading (readWord? f) = word f :=
  (funext (run_word f)).symm

namespace Number

def one? : Word → Option Nat
  | .literal n => if n.val < 10 then some n.val else none
  | .numeral n => if n.value < 10 then some n.value else none
  | _ => none

theorem reading_ones? : reading ones? = word one? :=
  reading_readWord? one?

/-- The numbers that end with their first word. -/
def short? : Word → Option Nat
  | .numeral n => if n.value < 20 then some n.value else none
  | .literal n => if n.val < 100 then some n.val else none
  | _ => none

def tens? : Word → Option Nat
  | .numeral n => if n.value < 20 then none else some n.value
  | _ => none

theorem reading_double? : reading double? = (word short? <|> do
    let n ← word tens?
    skip .dash
    ifReads (reading ones?) (fun k => pure (n + k)) (pure n)) := by
  refine StateT.ext fun ws => ?_
  cases ws with
  | nil => rfl
  | cons w ws =>
    cases w <;> first | rfl | skip
    · next n =>
      by_cases h : n.val < 100 <;> simp [run_reading, double?, short?, tens?, h]
    · next n =>
      by_cases h : n.value < 20
      · simp [run_reading, double?, short?, h]
      · cases hones : ones? (skipWord .dash ws) <;>
          simp [run_reading, double?, short?, tens?, h, run_ifReads, hones]

/-- What follows `k` hundreds. -/
def belowHundred (k : Nat) : Reading Nat := do
  return k * 100 + (← reading double?)

theorem reading_hundreds? (k : Nat) : reading (hundreds? k) = (do
    exactly .hundred
    ifReads (exactly .andWord) (fun _ => belowHundred k)
      (belowHundred k <|> pure (k * 100))) := by
  refine StateT.ext fun ws => ?_
  rw [run_reading, hundreds?.eq_def]
  split
  · next ws =>
    cases h : double? ws <;> simp [belowHundred, run_reading, run_ifReads, h]
  · next ws hno =>
    have hand : (exactly .andWord).run ws = none := run_exactly_eq_none hno
    cases h : double? ws <;>
      simp [belowHundred, run_reading, run_ifReads, hand, h]
  · next hno =>
    have hhundred : (exactly .hundred).run ws = none := run_exactly_eq_none hno
    simp [hhundred]

def threeDigits? : Word → Option Nat
  | .literal n => if 100 ≤ n.val ∧ n.val < 1000 then some n.val else none
  | _ => none

theorem reading_triple? : reading triple? =
    ((do reading (hundreds? (← reading ones?))) <|> reading (hundreds? 1) <|> reading double? <|>
      word threeDigits?) := by
  refine StateT.ext fun ws => ?_
  cases hones : ones? ws <;>
    simp [run_reading, triple?, Option.map_or, hones, run_word, Function.comp_def] <;> rfl

def scale? : Word → Option Scale
  | .scale s => some s
  | _ => none

/-- What follows a word for thousands or more. -/
def addend : Reading Nat :=
  ifReads (exactly .andWord) (fun _ => reading parse?) (ifReads (reading parse?) pure (pure 0))

theorem reading_scaled? (k : Nat) : reading (scaled? k) = (do
    let s ← word scale?
    let n ← addend
    option ((Text.count? (k * s.value + n)).map (·.val))) := by
  refine StateT.ext fun ws => ?_
  rw [run_reading, scaled?.eq_def]
  split
  · next s ws =>
    cases h : parse? ws <;>
      simp [run_reading, run_ifReads, addend, scale?, h, Function.comp_def]
  · next s ws hno =>
    have hand : (exactly .andWord).run ws = none := run_exactly_eq_none hno
    cases h : parse? ws <;>
      simp [run_reading, run_ifReads, addend, scale?, hand, h, Function.comp_def]
  · next hno =>
    cases ws with
    | nil => rfl
    | cons w ws => cases w <;> first | rfl | exact (hno _ _ rfl).elim

def manyDigits? : Word → Option Nat
  | .literal n => if 1000 ≤ n.val then some n.val else none
  | _ => none

theorem reading_parse? : reading parse? =
    ((do reading (scaled? (← reading triple?))) <|> reading (scaled? 1) <|> reading triple? <|>
      word manyDigits?) := by
  refine StateT.ext fun ws => ?_
  rw [run_reading, parse?.eq_def]
  cases htriple : triple? ws with
  | none => simp [run_reading, Option.map_or, htriple, run_word]; rfl
  | some p =>
    cases hscaled : scaled? p.value p.rest <;> cases hone : scaled? 1 ws <;>
      simp [run_reading, htriple, hscaled, hone]

end Number

namespace Duration

def unit? : Word → Option TimeUnit
  | .unit u => some u
  | _ => none

def article? : Word → Option Unit
  | .indefinite | .the => some ()
  | _ => none

theorem reading_part? : reading part? =
    ((do return count (← reading Number.parse?) (← word unit?)) <|>
      do
        word article?
        return one (← word unit?)) := by
  refine StateT.ext fun ws => ?_
  simp only [run_reading, run_orElse, part?, Option.orElse_eq_orElse, Option.orElse_eq_or, Option.map_or]
  congr 1
  · cases hnumber : Number.parse? ws with
    | none => simp [run_reading, hnumber]
    | some n =>
      simp [run_reading, run_word, hnumber, Function.comp_def]
      rfl
  · split
    · simp [article?, run_word unit?, Function.comp_def]; rfl
    · simp [article?, run_word unit?, Function.comp_def]; rfl
    · next h₁ h₂ =>
      cases ws with
      | nil => rfl
      | cons w ws =>
        cases w <;> first | rfl | exact (h₁ _ rfl).elim | exact (h₂ _ rfl).elim

theorem reading_parse? : reading parse? = (do
    let d ← reading part?
    (do
      exactly .andWord
      return both d (← reading parse?)) <|> pure d) := by
  refine StateT.ext fun ws => ?_
  rw [run_reading, parse?.eq_def]
  cases hpart : part? ws with
  | none => simp [run_reading, hpart]
  | some first =>
    simp only [StateT.run_bind, run_reading, hpart]
    split
    · next rest h =>
      cases hrest : parse? rest <;> simp [run_reading, h, hrest]
    · next h =>
      have hand : (exactly .andWord).run first.rest = none := run_exactly_eq_none h
      simp [hand]

end Duration

namespace DateExpr

/-- The words that make a number before them the hour of a time. -/
def endsHour : Word → Bool
  | .colon | .meridiem _ => true
  | _ => false

theorem reading_year? : reading year? =
    ifReads (exactly .comma)
      (fun _ => do
        let y ← reading Number.parse?
        option (if 1000 ≤ y then some y else none))
      (do
        let y ← reading Number.parse?
        unlessNext endsHour
        return y) := by
  refine StateT.ext fun ws => ?_
  rw [run_reading, year?.eq_def, run_ifReads]
  split
  · next ws =>
    cases hnumber : Number.parse? ws with
    | none => simp [run_reading, hnumber]
    | some y => by_cases h : 1000 ≤ y.value <;> simp [run_reading, hnumber, h]
  · next hno =>
    have hcomma : (exactly .comma).run ws = none := run_exactly_eq_none hno
    cases hnumber : Number.parse? ws with
    | none => simp [run_reading, hcomma, hnumber]
    | some y =>
      cases hrest : y.rest with
      | nil => simp [run_reading, hcomma, hnumber, hrest]
      | cons w rest => cases w <;> simp [run_reading, hcomma, hnumber, hrest, endsHour]

/-- The day of a month with the year that may follow it. -/
def dayThen (m : Month) (d : Nat) : Reading DateExpr :=
  ifReads (reading year?) (fun y => pure (monthDayYear m d y)) (pure (monthDay m d))

theorem run_dayThen {ws : List Word} (m : Month) (day : Parsed Nat ws) :
    (dayThen m day.value).run day.rest = some ((dayOf m day).value, (dayOf m day).rest) := by
  cases h : year? day.rest <;> simp [dayThen, dayOf, run_ifReads, run_reading, h]

def month? : Word → Option Month
  | .month m => some m
  | _ => none

theorem reading_monthFirst? : reading monthFirst? = (do
    let m ← word month?
    ifReads (reading Number.parse?)
      (fun n =>
        if 31 < n then pure (monthYear m n)
        else do
          skip .ordinalSuffix
          dayThen m n)
      (pure (month m))) := by
  refine StateT.ext fun ws => ?_
  cases ws with
  | nil => rfl
  | cons w ws =>
    cases w <;> first | rfl | skip
    next m =>
    cases hnumber : Number.parse? ws with
    | none => simp [run_reading, monthFirst?, month?, run_ifReads, hnumber]
    | some n =>
      by_cases h : 31 < n.value
      · simp [run_reading, monthFirst?, month?, run_ifReads, hnumber, h]
      · simp [run_reading, monthFirst?, month?, run_ifReads, hnumber, h, ← run_dayThen]

theorem reading_dayFirst? : reading dayFirst? = (do
    skip .the
    let n ← reading Number.parse?
    skip .ordinalSuffix
    skip .ofWord
    let m ← word month?
    if n ≤ 31 then dayThen m n else failure) := by
  refine StateT.ext fun ws => ?_
  rw [run_reading, dayFirst?]
  cases hnumber : Number.parse? (skipWord .the ws) with
  | none => simp [run_reading, hnumber]
  | some n =>
    simp only [Option.bind_some, StateT.run_bind, run_skip, run_reading, hnumber, Option.map_some,
      Option.bind_eq_bind]
    split
    · next m rest h =>
      simp only [Parsed.skip] at h
      by_cases hn : n.value ≤ 31
      · simp [h, hn, month?, ← run_dayThen]
      · simp [h, hn, month?]
    · next hno =>
      cases h : skipWord .ofWord (skipWord .ordinalSuffix n.rest) with
      | nil => simp
      | cons w rest => cases w <;> first | exact (hno _ _ h).elim | simp [month?]

def delimiter? (w : Word) : Option Word :=
  if isDelimiter w then some w else none

theorem reading_numeric? : reading numeric? = (do
    let first ← reading Number.parse?
    let delimiter ← word delimiter?
    let second ← reading Number.parse?
    let md := monthAndDay delimiter first second
    ifReads (exactly delimiter)
      (fun _ => do return numericFull md.1 md.2 (← reading Number.parse?))
      (pure (numeric md.1 md.2))) := by
  refine StateT.ext fun ws => ?_
  rw [run_reading, numeric?]
  cases hfirst : Number.parse? ws with
  | none => simp [run_reading, hfirst]
  | some first =>
    simp only [Option.bind_some, StateT.run_bind, run_reading, hfirst, Option.map_some, Option.bind_eq_bind]
    split
    · next delimiter rest h =>
      by_cases hd : isDelimiter delimiter = true
      · cases hsecond : Number.parse? rest with
        | none => simp [h, hd, hsecond, delimiter?]
        | some second =>
          simp only [h, hd, delimiter?, run_word_cons, if_true, Option.bind_some]
          split
          · next v rest₂ h₂ =>
            by_cases hv : v = delimiter
            · cases hthird : Number.parse? rest₂ <;>
                simp [run_reading, run_ifReads, hsecond, h₂, hv, hthird]
            · simp [run_reading, run_ifReads, hsecond, h₂, hv]
          · next h₂ => simp [run_reading, run_ifReads, hsecond, h₂]
      · simp [h, hd, delimiter?]
    · next h => simp [h]

/-- The words that a relative one makes a date with. -/
def weekdayOrUnit? (r : Relative) : Word → Option DateExpr
  | .weekday d => some (relativeWeekday r d)
  | .unit u => some (relativeUnit r u)
  | _ => none

def relativeWord? : Word → Option Relative
  | .relative r => some r
  | _ => none

theorem reading_relative? : reading relative? = (do
    let r ← word relativeWord?
    word (weekdayOrUnit? r)) := by
  refine StateT.ext fun ws => ?_
  match ws with
  | [] => rfl
  | [w] => cases w <;> rfl
  | w :: v :: ws =>
    cases w <;> first | rfl | skip
    cases v <;> rfl

def afterOrFrom? : Word → Option Unit
  | .afterWord | .fromWord => some ()
  | _ => none

def namedDayWord? : Word → Option DateExpr
  | .today => some today
  | .tomorrow => some tomorrow
  | .yesterday => some yesterday
  | _ => none

def weekdayWord? : Word → Option DateExpr
  | .weekday d => some (weekday d)
  | _ => none

/-- The date that a duration leads to, from a date that follows it or from today. -/
def durationThen (d : Duration) : Reading DateExpr :=
  if d.isSubDaily then failure
  else
    (do
      exactly .agoWord
      return before d today) <|>
    (do
      word afterOrFrom?
      return after d (← reading parse?))

def byDuration : Reading DateExpr := do
  durationThen (← reading Duration.parse?)

theorem reading_parse? : reading parse? =
    (word namedDayWord? <|> reading monthFirst? <|> reading dayFirst? <|> reading numeric? <|>
      byDuration <|> reading relative? <|> word weekdayWord?) := by
  refine StateT.ext fun ws => ?_
  rw [run_reading, parse?.eq_def]
  simp only [run_orElse, Option.orElse_eq_orElse, Option.orElse_eq_or, Option.map_or, run_reading]
  congr 1
  · rw [run_word]; rfl
  congr 1
  congr 1
  congr 1
  congr 1
  · unfold byDuration durationThen
    cases hduration : Duration.parse? ws with
    | none => simp [run_reading, hduration]
    | some d =>
      by_cases hsub : d.value.isSubDaily = true
      · simp [hduration, run_reading, hsub]
      · simp only [hsub, Bool.false_eq_true, if_false, StateT.run_bind, run_reading, hduration,
          Option.map_some, Option.bind_eq_bind, Option.bind_some]
        split
        · next rest h => simp [h]
        · next rest h =>
          cases hdate : parse? rest <;> simp [run_reading, h, hdate, afterOrFrom?]
        · next rest h =>
          cases hdate : parse? rest <;> simp [run_reading, h, hdate, afterOrFrom?]
        · next hago hafter hfrom =>
          cases h : d.rest with
          | nil => simp
          | cons w rest =>
            cases w <;> first
              | exact (hago _ h).elim
              | exact (hafter _ h).elim
              | exact (hfrom _ h).elim
              | simp [afterOrFrom?]
  congr 1
  · rw [run_word]; rfl

end DateExpr

namespace TimeExpr

def namedTime? : Word → Option TimeExpr
  | .midnight => some (clock 0 0)
  | .noon => some (clock 12 0)
  | _ => none

/-- The minutes after an hour. -/
def minutesThen : Reading (Option Nat) :=
  ifReads (exactly .colon) (fun _ => perhaps (reading Number.parse?)) (pure none)

theorem run_minutesThen (ws : List Word) : minutesThen.run ws = some (minutes ws) := by
  rw [minutes.eq_def]
  split
  · next ws =>
    cases h : Number.parse? ws <;> simp [minutesThen, perhaps, run_ifReads, run_reading, h]
  · next hno =>
    simp [minutesThen, run_ifReads, run_exactly_eq_none hno]

def meridiem? : Word → Option Meridiem
  | .meridiem half => some half
  | _ => none

/-- The time of a given hour. -/
def hourThen (hour : Nat) : Reading TimeExpr := do
  let minute ← minutesThen
  ifReads (word meridiem?)
    (fun half => pure (halfDay half hour (minute.getD 0)))
    (pure (match minute with
      | some minute => clock hour minute
      | none => bare hour))

theorem run_hourThen {ws : List Word} (hour : Parsed Nat ws) :
    (hourThen hour.value).run hour.rest =
      some ((afterHour hour).value, (afterHour hour).rest) := by
  rw [hourThen, StateT.run_bind, run_minutesThen, afterHour]
  split
  · next minute half rest h => simp [h, run_ifReads, meridiem?]
  · next minute rest hno h =>
    cases rest with
    | nil => simp [h, run_ifReads]
    | cons w rest =>
      cases w <;> first | exact (hno _ _ rfl).elim | simp [h, run_ifReads, meridiem?]
  · next rest hno h =>
    cases rest with
    | nil => simp [h, run_ifReads]
    | cons w rest =>
      cases w <;> first | exact (hno _ _ rfl).elim | simp [h, run_ifReads, meridiem?]

theorem reading_parse? : reading parse? =
    (word namedTime? <|> do hourThen (← reading Number.parse?)) := by
  refine StateT.ext fun ws => ?_
  rw [run_reading, run_orElse, StateT.run_bind, run_reading, parse?.eq_def]
  split
  · rfl
  · rfl
  · next hmidnight hnoon =>
    have hnamed : (word namedTime?).run ws = none := by
      cases ws with
      | nil => rfl
      | cons w ws =>
        cases w <;> first | rfl | exact (hmidnight _ rfl).elim | exact (hnoon _ rfl).elim
    rw [hnamed]
    cases h : Number.parse? ws <;> simp [run_hourThen]

end TimeExpr

namespace MomentExpr

def commaOrAt? : Word → Option Unit
  | .comma | .atWord => some ()
  | _ => none

def commaOrOn? : Word → Option Unit
  | .comma | .onWord => some ()
  | _ => none

theorem reading_timeAfter : reading timeAfter =
    ifReads (word commaOrAt?) (fun _ => reading TimeExpr.parse?) (reading TimeExpr.parse?) := by
  refine StateT.ext fun ws => ?_
  cases ws with
  | nil => rfl
  | cons w ws =>
    cases w <;>
      simp [run_reading, run_ifReads, timeAfter, commaOrAt?, Function.comp_def]

theorem reading_dateAfter : reading dateAfter =
    ifReads (word commaOrOn?) (fun _ => reading DateExpr.parse?) (reading DateExpr.parse?) := by
  refine StateT.ext fun ws => ?_
  cases ws with
  | nil => simp [run_reading, run_ifReads, dateAfter]
  | cons w ws =>
    cases w <;>
      simp [run_reading, run_ifReads, dateAfter, commaOrOn?, Function.comp_def]

/-- A date with the time that may follow it. -/
def dateThen (date : DateExpr) : Reading MomentExpr :=
  ifReads (reading timeAfter) (fun time => pure (dateTime date time))
    (pure (dateTime date .unstated))

theorem run_dateThen {ws : List Word} (date : Parsed DateExpr ws) :
    (dateThen date.value).run date.rest = some ((withDate date).value, (withDate date).rest) := by
  cases h : timeAfter date.rest <;> simp [dateThen, withDate, run_ifReads, run_reading, h]

/-- A time with the date that may follow it. -/
def timeThen (time : TimeExpr) : Reading MomentExpr :=
  ifReads (reading dateAfter) (fun date => pure (timeDate time date))
    (pure (timeDate time .unstated))

theorem run_timeThen {ws : List Word} (time : Parsed TimeExpr ws) :
    (timeThen time.value).run time.rest = some ((withTime time).value, (withTime time).rest) := by
  cases h : dateAfter time.rest <;> simp [timeThen, withTime, run_ifReads, run_reading, h]

/-- What must follow a duration that is no date. -/
def shiftThen (d : Duration) (moment : Reading MomentExpr) : Reading MomentExpr :=
  (do
    word DateExpr.afterOrFrom?
    return after d (← moment)) <|>
  (do
    exactly .beforeWord
    return before d (← moment)) <|>
  (do
    exactly .agoWord
    return before d now)

theorem reading_parse? : reading parse? =
    ifReads (exactly .now) (fun _ => pure now) (
      ifReads (exactly .inWord) (fun _ => do return after (← reading Duration.parse?) now) (
        ifReads (reading DateExpr.parse?) dateThen (
          ifReads (reading Duration.parse?) (fun d => shiftThen d (reading parse?)) (do
            timeThen (← reading TimeExpr.parse?))))) := by
  refine StateT.ext fun ws => ?_
  rw [run_reading, parse?.eq_def, run_ifReads]
  split
  · simp
  · next ws =>
    cases h : Duration.parse? ws <;> simp [run_ifReads, run_reading, h]
  · next hnow hin =>
    rw [run_exactly_eq_none hnow, run_ifReads, run_exactly_eq_none hin, run_ifReads, run_reading]
    cases hdate : DateExpr.parse? ws with
    | some date => simp [run_dateThen]
    | none =>
      rw [run_ifReads, run_reading]
      cases hduration : Duration.parse? ws with
      | none => 
        cases htime : TimeExpr.parse? ws <;> simp [run_reading, htime, run_timeThen]
      | some d =>
        simp only [shiftThen]
        split
        · next rest h => cases hrest : parse? rest <;> simp [run_reading, h, hrest, DateExpr.afterOrFrom?]
        · next rest h => cases hrest : parse? rest <;> simp [run_reading, h, hrest, DateExpr.afterOrFrom?]
        · next rest h => cases hrest : parse? rest <;> simp [run_reading, h, hrest, DateExpr.afterOrFrom?]
        · next rest h => simp [h, DateExpr.afterOrFrom?]
        · next hafter hfrom hbefore hago =>
          cases h : d.rest with
          | nil => simp [h]
          | cons w rest =>
            cases w <;> first
              | exact (hafter _ h).elim
              | exact (hfrom _ h).elim
              | exact (hbefore _ h).elim
              | exact (hago _ h).elim
              | simp [h, DateExpr.afterOrFrom?]

end MomentExpr

end CasualDate
