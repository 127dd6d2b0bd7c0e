import CasualDate.Proofs.Calendar.RoundTrip
import CasualDate.Proofs.Layout.Splice
import CasualDate.Proofs.Text.InOrder

/-!
# Dates written from the year to the day

Written year first, in either calendar, dates are told apart (`format_yearFirst`). Month and day take
two digits each, so they are read off the end, and what stands in front of them is the year with its
sign, however many digits it has. Where the years have four digits and no sign, the dates come in the
order of the bytes of their texts.
-/

namespace CasualDate

/-- The patterns that write a date from the year to the day. -/
def yearFirstPatterns : List String :=
  ["YYYY-MM-DD", "YYYY/MM/DD"]

namespace LocalDate

variable {l m : LocalDate} {mark : Char}

/-- Year, month and day in numbers, with a mark between them. -/
def inNumbers (mark : Char) (l : LocalDate) : List Char :=
  Text.paddedInt 4 l.year ++ mark :: (Text.padded 2 l.month ++ mark :: Text.padded 2 l.day)

/-- The numbers of month and day have two digits at most. -/
structure InTwoDigits (l : LocalDate) : Prop where
  month_lt : l.month < 100
  day_lt : l.day < 100

namespace InTwoDigits

theorem length_month (h : l.InTwoDigits) : (Text.padded 2 l.month).length = 2 :=
  Text.length_padded (by decide) h.month_lt

theorem length_day (h : l.InTwoDigits) : (Text.padded 2 l.day).length = 2 :=
  Text.length_padded (by decide) h.day_lt

end InTwoDigits

theorem inNumbers_inj (hl : l.InTwoDigits) (hm : m.InTwoDigits) :
    l.inNumbers mark = m.inNumbers mark ↔ l = m := by
  constructor
  · intro h
    have hrest : (mark :: (Text.padded 2 l.month ++ mark :: Text.padded 2 l.day)).length =
        (mark :: (Text.padded 2 m.month ++ mark :: Text.padded 2 m.day)).length := by
      simp only [List.length_cons, List.length_append, hl.length_month, hm.length_month,
        hl.length_day, hm.length_day]
    obtain ⟨hyear, hrest⟩ := List.append_inj' h hrest
    obtain ⟨hmonth, hday⟩ := List.append_inj (List.cons.inj hrest).2
      (hl.length_month.trans hm.length_month.symm)
    cases l
    cases m
    rw [mk.injEq]
    exact ⟨Text.paddedInt_inj.1 hyear, Text.padded_inj.1 hmonth,
      Text.padded_inj.1 (List.cons.inj hday).2⟩
  · rintro rfl
    rfl

/-- The year is written with four digits and no sign. -/
def InFourDigits (l : LocalDate) : Prop :=
  0 ≤ l.year ∧ l.year ≤ 9999

theorem InFourDigits.exists_eq_natCast (h : l.InFourDigits) :
    ∃ y : Nat, l.year = y ∧ y < 10 ^ 4 := by
  obtain ⟨y, hy⟩ := Int.eq_ofNat_of_zero_le h.1
  have := h.2
  exact ⟨y, hy, by omega⟩

/-- With years of four digits, texts come in the order of the dates. -/
theorem inNumbers_lt_iff (hl : l.InTwoDigits) (hm : m.InTwoDigits) (hl' : l.InFourDigits)
    (hm' : m.InFourDigits) : l.inNumbers mark < m.inNumbers mark ↔ l.Precedes m := by
  obtain ⟨y, hy, hylt⟩ := hl'.exists_eq_natCast
  obtain ⟨z, hz, hzlt⟩ := hm'.exists_eq_natCast
  have hyears : (Text.paddedInt 4 y).length = (Text.paddedInt 4 z).length :=
    (Text.length_padded (by decide) hylt).trans (Text.length_padded (by decide) hzlt).symm
  have hmonths := hl.length_month.trans hm.length_month.symm
  have hyear : Text.paddedInt 4 y < Text.paddedInt 4 z ↔ y < z :=
    Text.padded_lt_iff (by decide) hylt hzlt
  rw [inNumbers, inNumbers, hy, hz, Text.append_lt_append_iff hyears, List.cons_lt_cons_self,
    Text.append_lt_append_iff hmonths, List.cons_lt_cons_self, hyear, Text.paddedInt_inj,
    Text.padded_lt_iff (by decide) hl.month_lt hm.month_lt, Text.padded_inj,
    Text.padded_lt_iff (by decide) hl.day_lt hm.day_lt, Precedes, hy, hz]
  omega

theorem lt_of_mem_inNumbers (hmark : mark.toNat < 128) {c : Char} (hc : c ∈ l.inNumbers mark) :
    c.toNat < 128 := by
  have hdigit {d : Char} (hd : d.isDigit = true) : d.toNat < 128 := by
    have hle : d.toNat ≤ 57 := (Char.isDigit_iff_toNat.1 hd).2
    omega
  simp only [inNumbers, List.mem_append, List.mem_cons] at hc
  rcases hc with hyear | rfl | hmonth | rfl | hday
  · cases hy : l.year with
    | ofNat y =>
      rw [hy] at hyear
      exact hdigit (Text.isDigit_of_mem_padded hyear)
    | negSucc y =>
      rw [hy] at hyear
      rcases List.mem_cons.1 hyear with rfl | hyear
      · decide
      · exact hdigit (Text.isDigit_of_mem_padded hyear)
  · exact hmark
  · exact hdigit (Text.isDigit_of_mem_padded hmonth)
  · exact hmark
  · exact hdigit (Text.isDigit_of_mem_padded hday)

end LocalDate

namespace Calendar

variable {c : Calendar} {l : LocalDate}

theorem day_le (h : c.reckoning.HasDate l) : l.day ≤ 31 := by
  obtain ⟨hm, hle, -, hday⟩ := hasDate_iff.1 h
  exact Nat.le_trans hday (le_of_mem_monthLengths (c.daysInMonth_mem_monthLengths l.year hm hle))

theorem inTwoDigits_of_toLocal {d : Date} (h : c.toLocal d = .ok l) : l.InTwoDigits := by
  obtain ⟨-, rfl⟩ := toLocal_eq_ok_iff.1 h
  have hname := c.lawful.hasDate_localDate d.dayNumber
  have := (hasDate_iff.1 hname).2.1
  have := day_le hname
  exact ⟨by omega, by omega⟩

end Calendar

namespace Instant

variable {c : Calendar} {t u : Instant} {l : LocalDate} {pattern a b : String}

theorem format_eq_inNumbers (hpattern : pattern ∈ yearFirstPatterns) :
    ∃ mark : Char, mark.toNat < 128 ∧ ∀ (c : Calendar) (t : Instant) (l : LocalDate),
      c.toLocal t.date = .ok l → t.format pattern c = .ok (String.ofList (l.inNumbers mark)) := by
  have hpieces : ∃ mark : Char, mark.toNat < 128 ∧ Layout.pieces pattern.toList =
      [.field .year, .text [mark], .field .paddedMonth, .text [mark], .field .paddedDay] := by
    simp only [yearFirstPatterns, List.mem_cons, List.not_mem_nil, or_false] at hpattern
    rcases hpattern with rfl | rfl
    · exact ⟨'-', by decide, by decide +kernel⟩
    · exact ⟨'/', by decide, by decide +kernel⟩
  obtain ⟨mark, hmark, hpieces⟩ := hpieces
  refine ⟨mark, hmark, fun c t l hl => ?_⟩
  rw [format_eq pattern hl, hpieces]
  simp [LocalDate.inNumbers, Layout.Piece.render, Layout.Field.render]

/-- The year that the calendar counts at the date has four digits and no sign. -/
def InFourDigits (t : Instant) (c : Calendar) : Prop :=
  (c.reckoning.localDate t.date.dayNumber).InFourDigits

/-- Written year first, dates are the same exactly if their texts are, and with years of four digits one
is earlier than the other exactly if its text comes first by its bytes. -/
theorem format_yearFirst (hpattern : pattern ∈ yearFirstPatterns) (ha : t.format pattern c = .ok a)
    (hb : u.format pattern c = .ok b) :
    (a = b ↔ t.date = u.date) ∧ (t.InFourDigits c → u.InFourDigits c →
      (Text.bytes a < Text.bytes b ↔ t.date.dayNumber < u.date.dayNumber)) := by
  obtain ⟨l, hl⟩ := exists_toLocal_of_format ha
  obtain ⟨m, hm⟩ := exists_toLocal_of_format hb
  obtain ⟨mark, hmark, hformat⟩ := format_eq_inNumbers hpattern
  obtain rfl := Except.ok.inj (ha.symm.trans (hformat c t l hl))
  obtain rfl := Except.ok.inj (hb.symm.trans (hformat c u m hm))
  have hl' := Calendar.inTwoDigits_of_toLocal hl
  have hm' := Calendar.inTwoDigits_of_toLocal hm
  obtain ⟨-, rfl⟩ := Calendar.toLocal_eq_ok_iff.1 hl
  obtain ⟨-, rfl⟩ := Calendar.toLocal_eq_ok_iff.1 hm
  constructor
  · rw [String.ofList_inj, LocalDate.inNumbers_inj hl' hm']
    constructor
    · intro h
      -- A date is found again by its name.
      have hfound := c.ofLocal_localDate t.date
      rw [h, c.ofLocal_localDate] at hfound
      exact (Except.ok.inj hfound).symm
    · intro h
      rw [h]
  · intro ht hu
    rw [Text.bytes_lt_iff (fun _ => LocalDate.lt_of_mem_inNumbers hmark)
      (fun _ => LocalDate.lt_of_mem_inNumbers hmark), LocalDate.inNumbers_lt_iff hl' hm' ht hu]
    exact (c.lt_iff_precedes t.date u.date).symm

/-- The last day of year 999 and the first of year 1000 in the Persian calendar. -/
theorem format_yearFirst_newYear :
    let t : Instant := ⟨⟨591772, by decide, by decide⟩, .midnight⟩
    let u : Instant := ⟨⟨591773, by decide, by decide⟩, .midnight⟩
    "YYYY/MM/DD" ∈ yearFirstPatterns ∧ t.format "YYYY/MM/DD" .persian = .ok "0999/12/30" ∧
      u.format "YYYY/MM/DD" .persian = .ok "1000/01/01" ∧ t.InFourDigits .persian ∧
      u.InFourDigits .persian ∧ ("0999/12/30" = "1000/01/01" ↔ t.date = u.date) ∧
      (Text.bytes "0999/12/30" < Text.bytes "1000/01/01" ↔ t.date.dayNumber < u.date.dayNumber) := by
  intro t u
  have hpattern : "YYYY/MM/DD" ∈ yearFirstPatterns := by decide
  have ha : t.format "YYYY/MM/DD" .persian = .ok "0999/12/30" := by decide +kernel
  have hb : u.format "YYYY/MM/DD" .persian = .ok "1000/01/01" := by decide +kernel
  have ht : t.InFourDigits .persian := by
    show 0 ≤ _ ∧ _ ≤ (9999 : Int)
    decide +kernel
  have hu : u.InFourDigits .persian := by
    show 0 ≤ _ ∧ _ ≤ (9999 : Int)
    decide +kernel
  obtain ⟨hsame, horder⟩ := format_yearFirst hpattern ha hb
  exact ⟨hpattern, ha, hb, ht, hu, hsame, horder ht hu⟩

end Instant

end CasualDate
