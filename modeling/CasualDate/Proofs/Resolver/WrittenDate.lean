import CasualDate.Proofs.Layout.Readable
import CasualDate.Proofs.Reading.Moment
import CasualDate.Proofs.Resolver.WholeText

/-!
# Dates that are written and read back

What `datePatterns` and `timeSuffixes` write of an instant is read back as the same date, whatever
the current instant (`resolveAt_format`). Each pattern takes its own way through the readers, so
they are followed one by one; the number of its day, month or hour never makes a year and no year
makes an hour, since years have four digits.
-/

namespace CasualDate

open Layout

/-- The patterns that write a full date so that it can be read back. -/
def datePatterns : List String :=
  ["M/D/YYYY", "MM/DD/YYYY", "M-D-YYYY", "D.M.YYYY", "MMMM D YYYY", "MMMM D, YYYY", "MMM D YYYY",
    "MMMM Do YYYY", "D MMMM YYYY"]

/-- The patterns that add the time to the minute. -/
def timeSuffixes : List String :=
  [" HH:mm", " h:mm A"]

def TimeOfDay.onMinute (t : TimeOfDay) : TimeOfDay :=
  ⟨t.hour, t.minute, 0, 0, t.hour_lt, t.minute_lt, midnight.second_le, midnight.nanosecond_lt⟩

theorem TimeOfDay.ofClock?_onMinute (t : TimeOfDay) :
    ofClock? t.hour t.minute 0 = some t.onMinute := by
  have hparts : t.hour < 24 ∧ t.minute < 60 ∧ 0 ≤ 60 ∧ 0 < 1000000000 :=
    ⟨t.hour_lt, t.minute_lt, by decide, by decide⟩
  rw [ofClock?, if_pos (by decide), of?, dif_pos hparts]
  rfl

/-! ### The meaning of what is read -/

theorem Layout.number_monthOf {n : Nat} (hpos : 1 ≤ n) (hle : n ≤ 12) : (monthOf n).number = n := by
  have hall : ∀ n ∈ List.range' 1 12, (monthOf n).number = n := by decide
  exact hall n (List.mem_range'_1.2 ⟨hpos, Nat.lt_succ_of_le hle⟩)

namespace DateExpr

variable {d : Date} {y : Nat}

theorem inYear_eq {cause : InvalidDate} (hy : d.year = y) (hle : y ≤ 9999) :
    inYear y d.month d.day cause = .ok d := by
  have hmax : ¬maxYear < y := by unfold maxYear; omega
  rw [inYear, if_neg hmax, ← hy, d.ofCivil?_civil]

theorem evaluate_numericFull (today : Date) (hy : d.year = y) (hge : 1000 ≤ y) (hle : y ≤ 9999) :
    (numericFull d.month d.day y).evaluate today = .ok d := by
  have hfull : fullYear today.year y = .ok y := by rw [fullYear, if_pos (by omega)]
  rw [evaluate, hfull]
  show orRefuse (inYear y d.month d.day _) = .ok d
  rw [inYear_eq hy hle]
  rfl

theorem evaluate_monthDayYear (today : Date) (hy : d.year = y) (hle : y ≤ 9999) :
    (monthDayYear (monthOf d.month) d.day y).evaluate today = .ok d := by
  rw [evaluate, number_monthOf d.month_pos d.month_le, inYear_eq hy hle]
  rfl

end DateExpr

namespace TimeExpr

theorem evaluate_clock (t : TimeOfDay) (now : Instant) :
    (clock t.hour t.minute).evaluate now = .ok t.onMinute := by
  simp [evaluate, t.ofClock?_onMinute]

theorem evaluate_halfDay (t : TimeOfDay) (now : Instant) :
    (halfDay (if t.hour < 12 then .am else .pm) (clockHour t.hour) t.minute).evaluate now =
      .ok t.onMinute := by
  have hhour := t.hour_lt
  have hclock : ¬(clockHour t.hour = 0 ∨ 12 < clockHour t.hour) := by
    unfold clockHour
    split <;> omega
  by_cases ham : t.hour < 12
  · have hback : clockHour t.hour % 12 = t.hour := by
      unfold clockHour
      split <;> omega
    simp [evaluate, ham, hclock, hback, t.ofClock?_onMinute]
  · have hback : clockHour t.hour % 12 + 12 = t.hour := by
      unfold clockHour
      split <;> omega
    simp [evaluate, ham, hclock, hback, t.ofClock?_onMinute]

end TimeExpr

/-! ### The words of the patterns -/

/-- The ways in which the patterns arrange the words for month, day and year. -/
inductive Arranged (name : Month) (month day year : Word) : List Word → Prop where
  | slashes : Arranged name month day year [month, .slash, day, .slash, year]
  | dashes : Arranged name month day year [month, .dash, day, .dash, year]
  | dots : Arranged name month day year [day, .dot, month, .dot, year]
  | monthFirst : Arranged name month day year [.month name, day, year]
  | comma : Arranged name month day year [.month name, day, .comma, year]
  | ordinal : Arranged name month day year [.month name, day, .ordinalSuffix, year]
  | dayFirst : Arranged name month day year [day, .month name, year]

theorem arranged_datePattern (t : Instant) {pattern : String} (h : pattern ∈ datePatterns) :
    Arranged (monthOf t.date.month) (.ofNat t.date.month) (.ofNat t.date.day)
      (.ofNat t.date.year.toNat) (writtenWords t pattern) := by
  obtain ⟨hslash, hdash, hdot, hcomma, -, hspace⟩ := words_text
  simp only [datePatterns, List.mem_cons, List.not_mem_nil, or_false] at h
  rcases h with rfl | rfl | rfl | rfl | rfl | rfl | rfl | rfl | rfl
  · rw [writtenWords_eq [.field .month, .text ['/'], .field .day, .text ['/'],
      .field .year] (by decide +kernel)]
    simpa [Layout.Piece.words, Layout.Field.words, hslash] using Arranged.slashes
  · rw [writtenWords_eq [.field .paddedMonth, .text ['/'], .field .paddedDay, .text ['/'],
      .field .year] (by decide +kernel)]
    simpa [Layout.Piece.words, Layout.Field.words, hslash] using Arranged.slashes
  · rw [writtenWords_eq [.field .month, .text ['-'], .field .day, .text ['-'],
      .field .year] (by decide +kernel)]
    simpa [Layout.Piece.words, Layout.Field.words, hdash] using Arranged.dashes
  · rw [writtenWords_eq [.field .day, .text ['.'], .field .month, .text ['.'],
      .field .year] (by decide +kernel)]
    simpa [Layout.Piece.words, Layout.Field.words, hdot] using Arranged.dots
  · rw [writtenWords_eq [.field .monthName, .text [' '], .field .day, .text [' '],
      .field .year] (by decide +kernel)]
    simpa [Layout.Piece.words, Layout.Field.words, hspace] using Arranged.monthFirst
  · rw [writtenWords_eq [.field .monthName, .text [' '], .field .day, .text [','],
      .text [' '], .field .year] (by decide +kernel)]
    simpa [Layout.Piece.words, Layout.Field.words, hspace, hcomma] using Arranged.comma
  · rw [writtenWords_eq [.field .shortMonthName, .text [' '], .field .day, .text [' '],
      .field .year] (by decide +kernel)]
    simpa [Layout.Piece.words, Layout.Field.words, hspace] using Arranged.monthFirst
  · rw [writtenWords_eq [.field .monthName, .text [' '], .field .dayWithSuffix,
      .text [' '], .field .year] (by decide +kernel)]
    simpa [Layout.Piece.words, Layout.Field.words, hspace] using Arranged.ordinal
  · rw [writtenWords_eq [.field .day, .text [' '], .field .monthName, .text [' '],
      .field .year] (by decide +kernel)]
    simpa [Layout.Piece.words, Layout.Field.words, hspace] using Arranged.dayFirst

/-- An arranged date is read as that date, whatever follows it. -/
theorem reads_arranged {d : Date} {ws : List Word} (left : List Word) (hge : 1000 ≤ d.year)
    (hle : d.year ≤ 9999)
    (h : Arranged (monthOf d.month) (.ofNat d.month) (.ofNat d.day) (.ofNat d.year.toNat) ws)
    (hleft : ∀ w ∈ left.head?, w.endsYear = true) :
    ∃ e, Reads DateExpr.parse? (ws ++ left) e left ∧ (∀ today, e.evaluate today = .ok d) ∧
      e.stated = .fullDate ∧ ∀ w ∈ (ws ++ left).head?, MomentExpr.isOpening w = false := by
  have hy : d.year = d.year.toNat := (Int.toNat_of_nonneg (by omega)).symm
  have hge' : 1000 ≤ d.year.toNat := by omega
  have hle' : d.year.toNat ≤ 9999 := by omega
  have hday : d.day ≤ 31 := d.day_le
  have hnumeric := fun today => DateExpr.evaluate_numericFull today hy hge' hle'
  have hnamed := fun today => DateExpr.evaluate_monthDayYear today hy hle'
  rw [Word.ofNat_eq (Text.lt_countLimit (Nat.le_trans d.month_le (by decide))),
    Word.ofNat_eq (Text.lt_countLimit (Nat.le_trans hday (by decide))),
    Word.ofNat_eq (Text.lt_countLimit hle')] at h
  cases h with
  | slashes =>
    exact ⟨_, DateExpr.reads_numericFull rfl hleft, hnumeric, rfl, by simp [MomentExpr.isOpening]⟩
  | dashes =>
    exact ⟨_, DateExpr.reads_numericFull rfl hleft, hnumeric, rfl, by simp [MomentExpr.isOpening]⟩
  | dots =>
    exact ⟨_, DateExpr.reads_numericFull rfl hleft, hnumeric, rfl, by simp [MomentExpr.isOpening]⟩
  | monthFirst =>
    exact ⟨_, DateExpr.reads_monthDayYear hday (by simp [Word.multiplies])
      (DateExpr.reads_year hleft), hnamed, rfl, by simp [MomentExpr.isOpening]⟩
  | comma =>
    exact ⟨_, DateExpr.reads_monthDayYear hday (by simp [Word.multiplies])
      (DateExpr.reads_comma_year hge' hleft), hnamed, rfl, by simp [MomentExpr.isOpening]⟩
  | ordinal =>
    exact ⟨_, DateExpr.reads_monthDayYear hday (by simp [Word.multiplies])
      (DateExpr.reads_year hleft), hnamed, rfl, by simp [MomentExpr.isOpening]⟩
  | dayFirst =>
    exact ⟨_, DateExpr.reads_dayMonthYear hday (DateExpr.reads_year hleft), hnamed, rfl,
      by simp [MomentExpr.isOpening]⟩

theorem reads_timeSuffix (t : Instant) {suffix : String} (h : suffix ∈ timeSuffixes) :
    ∃ e, Reads MomentExpr.timeAfter (writtenWords t suffix) e [] ∧
      (∀ now, e.evaluate now = .ok t.time.onMinute) ∧
      ∀ w ∈ (writtenWords t suffix).head?, w.endsYear = true := by
  obtain ⟨-, -, -, -, hcolon, hspace⟩ := words_text
  have hhour := t.time.hour_lt
  have hminute : Word.ofNat t.time.minute = .literal ⟨t.time.minute, _⟩ :=
    Word.ofNat_eq (Text.lt_countLimit (Nat.le_trans (Nat.le_of_lt t.time.minute_lt) (by decide)))
  simp only [timeSuffixes, List.mem_cons, List.not_mem_nil, or_false] at h
  rcases h with rfl | rfl
  · have hwords : writtenWords t " HH:mm" =
        [.ofNat t.time.hour, .colon, .ofNat t.time.minute] := by
      rw [writtenWords_eq [.text [' '], .field .paddedHour, .text [':'],
        .field .paddedMinute] (by decide +kernel)]
      simp [Layout.Piece.words, Layout.Field.words, hcolon, hspace]
    rw [hwords, hminute, Word.ofNat_eq (Text.lt_countLimit (by omega))]
    exact ⟨_, TimeExpr.reads_clock, TimeExpr.evaluate_clock t.time, by simp [Word.endsYear]⟩
  · have hclock : clockHour t.time.hour ≤ 12 := by
      unfold clockHour
      split <;> omega
    have hwords : writtenWords t " h:mm A" = [.ofNat (clockHour t.time.hour), .colon,
        .ofNat t.time.minute, .meridiem (if t.time.hour < 12 then .am else .pm)] := by
      rw [writtenWords_eq [.text [' '], .field .hour12, .text [':'],
        .field .paddedMinute, .text [' '], .field .upperMeridiem] (by decide +kernel)]
      simp [Layout.Piece.words, Layout.Field.words, hcolon, hspace]
    rw [hwords, hminute, Word.ofNat_eq (Text.lt_countLimit (by omega))]
    exact ⟨_, TimeExpr.reads_halfDay, TimeExpr.evaluate_halfDay t.time, by simp [Word.endsYear]⟩

theorem readable_datePattern {pattern suffix : String} (hpattern : pattern ∈ datePatterns)
    (hsuffix : suffix ∈ "" :: timeSuffixes) :
    Readable (pattern ++ suffix) ∧
      pieces (pattern ++ suffix).toList = pieces pattern.toList ++ pieces suffix.toList := by
  have hall : ∀ pattern ∈ datePatterns, ∀ suffix ∈ "" :: timeSuffixes,
      (keepsApart (pieces (pattern ++ suffix).toList) = true ∧
        (∀ p ∈ pieces (pattern ++ suffix).toList, p.isSilent = true) ∧
        (pieces (pattern ++ suffix).toList).head?.any (·.isField) = true ∧
        (pieces (pattern ++ suffix).toList).getLast?.any (·.isField) = true) ∧
      pieces (pattern ++ suffix).toList = pieces pattern.toList ++ pieces suffix.toList := by
    decide +kernel
  obtain ⟨⟨hapart, hsilent, hhead, hlast⟩, happend⟩ := hall pattern hpattern suffix hsuffix
  exact ⟨⟨hapart, hsilent, hhead, hlast⟩, happend⟩

namespace Resolver

variable {t now : Instant} {pattern suffix output : String} {weekStart : Weekday}

theorem resolveAt_written (r : Resolver) {e : MomentExpr} {value : Instant}
    (hpattern : pattern ∈ datePatterns) (hsuffix : suffix ∈ "" :: timeSuffixes)
    (hge : 1000 ≤ t.date.year) (hle : t.date.year ≤ 9999)
    (hread : Reads MomentExpr.parse? (writtenWords t pattern ++ writtenWords t suffix) e [])
    (hbare : e.isBareNumber = false) (hweekday : e.stated.weekday = false)
    (hvalue : e.evaluate now = .ok value) :
    ∃ text, t.format (pattern ++ suffix) .gregorian = .ok text ∧
      r.resolveAt text weekStart output now = .ok (.date value.onClock) := by
  obtain ⟨hreadable, happend⟩ := readable_datePattern hpattern hsuffix
  obtain ⟨text, hformat, htight, hwords, hshape⟩ := format_spec hreadable (by omega) hle
  have hjoin : writtenWords t (pattern ++ suffix) =
      writtenWords t pattern ++ writtenWords t suffix := by
    rw [writtenWords, happend, List.flatMap_append]
    rfl
  have hfills : e.Fills text := ⟨htight, by rw [hwords, hjoin]; exact hread, hbare⟩
  have hanchor : r.anchor text weekStart now = .ok (false, now) := by
    rw [anchor_eq hfills hvalue, hweekday]
    rfl
  exact ⟨text, hformat, resolveAt_eq hfills hshape hanchor hvalue⟩

/-- What the patterns write of an instant is resolved to its date: without a time at the current
time, by the second, and with one at the time to the minute. -/
theorem resolveAt_format (r : Resolver) (t now : Instant) (weekStart : Weekday) (output : String)
    (hge : 1000 ≤ t.date.year) (hle : t.date.year ≤ 9999) (hpattern : pattern ∈ datePatterns) :
    (∃ text, t.format pattern .gregorian = .ok text ∧
      r.resolveAt text weekStart output now = .ok (.date ⟨t.date, now.time.onClock⟩)) ∧
    ∀ suffix ∈ timeSuffixes, ∃ text, t.format (pattern ++ suffix) .gregorian = .ok text ∧
      r.resolveAt text weekStart output now = .ok (.date ⟨t.date, t.time.onMinute⟩) := by
  have harranged := arranged_datePattern t hpattern
  constructor
  · obtain ⟨e, hread, hvalue, hstated, hopen⟩ :=
      reads_arranged [] hge hle harranged (by simp)
    have hmoment := MomentExpr.reads_date hopen hread (by simp [MomentExpr.timeAfter])
    have hnow : (MomentExpr.dateTime e .unstated).evaluate now = .ok ⟨t.date, now.time⟩ := by
      rw [MomentExpr.evaluate, hvalue]
      rfl
    have hempty : writtenWords t "" = [] := by
      rw [writtenWords_eq [] (by decide +kernel)]
      rfl
    have h : ∃ text, t.format (pattern ++ "") .gregorian = .ok text ∧
        r.resolveAt text weekStart output now = .ok (.date ⟨t.date, now.time.onClock⟩) :=
      resolveAt_written r hpattern (by simp) hge hle (by rw [hempty]; exact hmoment) rfl
        (by simp [MomentExpr.stated, hstated, Stated.fullDate]) hnow
    rwa [String.append_empty] at h
  · intro suffix hsuffix
    obtain ⟨time, htime, htimeValue, hyear⟩ := reads_timeSuffix t hsuffix
    obtain ⟨e, hread, hvalue, hstated, hopen⟩ := reads_arranged _ hge hle harranged hyear
    have hnow : (MomentExpr.dateTime e time).evaluate now = .ok ⟨t.date, t.time.onMinute⟩ := by
      rw [MomentExpr.evaluate, hvalue, htimeValue]
      rfl
    exact resolveAt_written r hpattern (List.mem_cons_of_mem _ hsuffix) hge hle
      (MomentExpr.reads_dateTime hopen hread htime) rfl
      (by simp [MomentExpr.stated, hstated, Stated.fullDate]) hnow

/-- The evening of 17 April 2024, written with its time and read on another day. -/
theorem resolveAt_april17 :
    let t : Instant := ⟨⟨738993, by decide, by decide⟩,
      ⟨22, 30, 0, 0, by decide, by decide, by decide, by decide⟩⟩
    let now : Instant := ⟨⟨738000, by decide, by decide⟩, .midnight⟩
    let r : Resolver := ⟨⟨Recognizer.builtin⟩, .gregorian, now⟩
    t.format "MMMM Do YYYY h:mm A" .gregorian = .ok "April 17th 2024 10:30 PM" ∧
      r.resolveAt "April 17th 2024 10:30 PM" .monday "" now = .ok (.date t) := by
  intro t now r
  have hformat : t.format "MMMM Do YYYY h:mm A" .gregorian = .ok "April 17th 2024 10:30 PM" := by
    decide +kernel
  have hpattern : "MMMM Do YYYY" ∈ datePatterns := by decide
  obtain ⟨-, hsuffix⟩ := resolveAt_format r t now .monday "" (by decide +kernel)
    (by decide +kernel) hpattern
  obtain ⟨text, htext, hresolve⟩ := hsuffix " h:mm A" (by decide)
  have heq : "April 17th 2024 10:30 PM" = text := by
    rw [show "MMMM Do YYYY" ++ " h:mm A" = "MMMM Do YYYY h:mm A" from rfl, hformat] at htext
    exact Except.ok.inj htext
  rw [heq]
  exact ⟨heq ▸ hformat, hresolve⟩

end Resolver

end CasualDate
