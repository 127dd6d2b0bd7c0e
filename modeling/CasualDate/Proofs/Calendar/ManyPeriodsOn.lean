import CasualDate.Proofs.Calendar.OnePeriodOn
import Mathlib.Order.Bounds.Basic

/-!
# Many periods on

Steps of a month or a year are counted in months: each leads that many months on, to the same day of
the month or its last one (`StepsInto.monthCount_eq`). A day that is cut off once stays cut off, so
after many steps the day is the least of the first one and the lengths of the months visited
(`addMany_walksTo`), and "31 January" does not come back in March by way of February.
-/

namespace CasualDate

/-- The months of the calendar that a step leads on. -/
def Period.months : Period → Nat
  | week => 0
  | month => 1
  | year => 12

/-- Months counted from the first month of year 0, all years having twelve. -/
def LocalDate.monthCount (l : LocalDate) : Int :=
  12 * l.year + (l.month - 1 : Nat)

namespace Calendar

open Reckoning

variable {c : Calendar} {p : Period} {d e : Date} {l m first : LocalDate} {now t : Instant}
  {k : Nat}

/-- The number of days of the month with this count. -/
def monthLength (c : Calendar) (count : Int) : Nat :=
  c.reckoning.daysInMonth (count / 12) ((count % 12).toNat + 1)

theorem monthLength_monthCount (c : Calendar) (hm : 1 ≤ l.month) (hle : l.month ≤ 12) :
    c.monthLength l.monthCount = c.reckoning.daysInMonth l.year l.month := by
  have hyear : l.monthCount / 12 = l.year := by
    unfold LocalDate.monthCount
    omega
  have hmonth : (l.monthCount % 12).toNat + 1 = l.month := by
    unfold LocalDate.monthCount
    omega
  rw [monthLength, hyear, hmonth]

theorem monthCount_stepped (hp : p ≠ .week) (hm : 1 ≤ l.month) (hle : l.month ≤ 12) :
    (c.stepped l p).monthCount = l.monthCount + p.months := by
  cases p with
  | week => exact absurd rfl hp
  | month =>
    simp only [stepped, nextMonth, monthsInYear_eq, LocalDate.monthCount, Period.months]
    split <;> dsimp only <;> omega
  | year =>
    simp only [stepped, LocalDate.monthCount, Period.months]
    omega

/-- The step leads to the month that many months on, and to the day with the same number or the last
one. -/
theorem localDate_dateOneOn (hp : p ≠ .week) (h : c.dateOneOn d p = .ok e) :
    (c.reckoning.localDate e.dayNumber).monthCount =
        (c.reckoning.localDate d.dayNumber).monthCount + p.months ∧
      (c.reckoning.localDate e.dayNumber).day = min (c.reckoning.localDate d.dayNumber).day
        (c.monthLength (c.reckoning.localDate e.dayNumber).monthCount) := by
  obtain ⟨hm, hle, -, -⟩ := hasDate_iff.1 (c.lawful.hasDate_localDate d.dayNumber)
  obtain ⟨hm', hle', -, -⟩ := hasDate_iff.1 (c.lawful.hasDate_localDate e.dayNumber)
  have hname := (stepsInto_of_dateOneOn hp h).2.localDate_eq
  rw [monthLength_monthCount c hm' hle', ← monthCount_stepped hp hm hle, hname]
  exact ⟨rfl, rfl⟩

/-- The instant `k` periods later, counted one by one. -/
def addMany (c : Calendar) (p : Period) : Nat → Instant → Except Failure Instant
  | 0, now => .ok now
  | k + 1, now => do c.addOne (← c.addMany p k now) p

theorem addMany_succ_eq_ok_iff : c.addMany p (k + 1) now = .ok t ↔
    ∃ u, c.addMany p k now = .ok u ∧ c.addOne u p = .ok t :=
  bind_eq_ok_iff

/-- The first day of the month and the lengths of the months that `k` steps lead to. -/
def daysMet (c : Calendar) (p : Period) (l : LocalDate) (k : Nat) : Set Nat :=
  {n | n = l.day ∨ ∃ i, 1 ≤ i ∧ i ≤ k ∧ n = c.monthLength (l.monthCount + i * p.months)}

theorem daysMet_zero (c : Calendar) (p : Period) (l : LocalDate) : c.daysMet p l 0 = {l.day} := by
  ext n
  simp only [daysMet, Set.mem_ofPred_eq, Set.mem_singleton_iff, or_iff_left_iff_imp]
  rintro ⟨i, hpos, hle, -⟩
  omega

theorem daysMet_succ (c : Calendar) (p : Period) (l : LocalDate) (k : Nat) :
    c.daysMet p l (k + 1) =
      insert (c.monthLength (l.monthCount + (k + 1 : Nat) * p.months)) (c.daysMet p l k) := by
  ext n
  simp only [daysMet, Set.mem_ofPred_eq, Set.mem_insert_iff]
  constructor
  · rintro (h | ⟨i, hpos, hle, h⟩)
    · exact .inr (.inl h)
    · rcases Nat.le_succ_iff.1 hle with hle | rfl
      · exact .inr (.inr ⟨i, hpos, hle, h⟩)
      · exact .inl h
  · rintro (h | h | ⟨i, hpos, hle, h⟩)
    · exact .inr ⟨k + 1, Nat.le_add_left 1 k, Nat.le_refl _, h⟩
    · exact .inl h
    · exact .inr ⟨i, hpos, Nat.le_succ_of_le hle, h⟩

/-- From the name `l`, `k` steps lead to the name `m`: as many months on as they count, on the least
of the first day of the month and the lengths of the months on the way. -/
structure WalksTo (c : Calendar) (p : Period) (k : Nat) (l m : LocalDate) : Prop where
  monthCount_eq : m.monthCount = l.monthCount + k * p.months
  isLeast_day : IsLeast (c.daysMet p l k) m.day

theorem WalksTo.zero (c : Calendar) (p : Period) (l : LocalDate) : c.WalksTo p 0 l l where
  monthCount_eq := by simp
  isLeast_day := by
    rw [daysMet_zero]
    exact isLeast_singleton

theorem WalksTo.step {n : LocalDate} (h : c.WalksTo p k l m)
    (hcount : n.monthCount = m.monthCount + p.months)
    (hday : n.day = min m.day (c.monthLength n.monthCount)) : c.WalksTo p (k + 1) l n := by
  have hmonths : n.monthCount = l.monthCount + (k + 1 : Nat) * p.months := by
    rw [hcount, h.monthCount_eq, Int.natCast_succ, Int.add_mul, Int.one_mul, Int.add_assoc]
  refine ⟨hmonths, ?_⟩
  rw [daysMet_succ, hday, hmonths, min_comm]
  exact h.isLeast_day.insert _

theorem time_addMany (h : c.addMany p k now = .ok t) : t.time = now.time := by
  induction k generalizing t with
  | zero =>
    cases h
    rfl
  | succ k ih =>
    obtain ⟨u, hu, ht⟩ := addMany_succ_eq_ok_iff.1 h
    obtain ⟨e, -, rfl⟩ := addOne_eq_ok_iff.1 ht
    show u.time = now.time
    exact ih hu

theorem addMany_walksTo (hp : p ≠ .week) (h : c.addMany p k now = .ok t) :
    c.WalksTo p k (c.reckoning.localDate now.date.dayNumber)
      (c.reckoning.localDate t.date.dayNumber) := by
  induction k generalizing t with
  | zero =>
    cases h
    exact .zero c p _
  | succ k ih =>
    obtain ⟨u, hu, ht⟩ := addMany_succ_eq_ok_iff.1 h
    obtain ⟨e, he, rfl⟩ := addOne_eq_ok_iff.1 ht
    obtain ⟨hcount, hday⟩ := localDate_dateOneOn hp he
    exact (ih hu).step hcount hday

/-- Years on, the month has the length that it has in the year reached. -/
theorem monthLength_years_on (hm : 1 ≤ l.month) (hle : l.month ≤ 12) (i : Nat) :
    c.monthLength (l.monthCount + i * Period.year.months) =
      c.reckoning.daysInMonth (l.year + i) l.month := by
  have hcount : l.monthCount + i * Period.year.months =
      LocalDate.monthCount ⟨l.year + i, l.month, l.day⟩ := by
    simp only [LocalDate.monthCount, Period.months]
    omega
  rw [hcount]
  exact monthLength_monthCount c hm hle

theorem WalksTo.of_year (h : c.WalksTo .year k l m) (hl : c.reckoning.HasDate l)
    (hm : c.reckoning.HasDate m) : m.year = l.year + k ∧ m.month = l.month := by
  obtain ⟨hpos, hle, -, -⟩ := hasDate_iff.1 hl
  obtain ⟨hpos', hle', -, -⟩ := hasDate_iff.1 hm
  have hcount := h.monthCount_eq
  simp only [LocalDate.monthCount, Period.months] at hcount
  omega

/-- Many periods on, the time of day is the same. Months on, the name of the day is that many months
on, years on it has the same month that many years on, and the day of the month is the least of the
first one and the lengths of the months stepped into. -/
theorem addMany_spec (h : c.addMany p k now = .ok t) :
    let l := c.reckoning.localDate now.date.dayNumber
    let m := c.reckoning.localDate t.date.dayNumber
    t.time = now.time ∧
      (p = .month → m.monthCount = l.monthCount + k ∧
        IsLeast {n | n = l.day ∨ ∃ i : Nat, 1 ≤ i ∧ i ≤ k ∧ n = c.monthLength (l.monthCount + i)}
          m.day) ∧
      (p = .year → m.year = l.year + k ∧ m.month = l.month ∧
        IsLeast {n | n = l.day ∨ ∃ i : Nat, 1 ≤ i ∧ i ≤ k ∧
          n = c.reckoning.daysInMonth (l.year + i) l.month} m.day) := by
  intro l m
  have hl : c.reckoning.HasDate l := c.lawful.hasDate_localDate _
  have hm : c.reckoning.HasDate m := c.lawful.hasDate_localDate _
  obtain ⟨hpos, hle, -, -⟩ := hasDate_iff.1 hl
  refine ⟨time_addMany h, ?_, ?_⟩
  · rintro rfl
    have hwalk : c.WalksTo .month k l m := addMany_walksTo (by decide) h
    refine ⟨by simpa [Period.months] using hwalk.monthCount_eq, ?_⟩
    simpa [daysMet, Period.months] using hwalk.isLeast_day
  · rintro rfl
    have hwalk : c.WalksTo .year k l m := addMany_walksTo (by decide) h
    obtain ⟨hyear, hmonth⟩ := hwalk.of_year hl hm
    refine ⟨hyear, hmonth, ?_⟩
    simpa only [daysMet, monthLength_years_on hpos hle] using hwalk.isLeast_day

/-- Eight months on from 31 Mordad 1402 is 29 Farvardin 1403, since Esfand had 29 days. Five years on
from the leap day of 1403 is 29 Esfand 1408, which has 30. -/
theorem addMany_spec_esfand :
    let mordad : Instant := ⟨⟨738754, by decide, by decide⟩, .endOfDay⟩
    let farvardin : Instant := ⟨⟨738993, by decide, by decide⟩, .endOfDay⟩
    let leapDay : Instant := ⟨⟨739330, by decide, by decide⟩, .midnight⟩
    let esfand : Instant := ⟨⟨741155, by decide, by decide⟩, .midnight⟩
    (persian.addMany .month 8 mordad = .ok farvardin ∧
      IsLeast {n | n = 31 ∨ ∃ i : Nat, 1 ≤ i ∧ i ≤ 8 ∧ n = persian.monthLength (16828 + i)} 29) ∧
    persian.addMany .year 5 leapDay = .ok esfand ∧
      IsLeast {n | n = 30 ∨ ∃ i : Nat, 1 ≤ i ∧ i ≤ 5 ∧
        n = persian.reckoning.daysInMonth (1403 + i) 12} 29 := by
  intro mordad farvardin leapDay esfand
  have hmonths : persian.addMany .month 8 mordad = .ok farvardin := by decide +kernel
  have hyears : persian.addMany .year 5 leapDay = .ok esfand := by decide +kernel
  have hmordad : persian.reckoning.localDate mordad.date.dayNumber = ⟨1402, 5, 31⟩ := by
    decide +kernel
  have hfarvardin : persian.reckoning.localDate farvardin.date.dayNumber = ⟨1403, 1, 29⟩ := by
    decide +kernel
  have hleapDay : persian.reckoning.localDate leapDay.date.dayNumber = ⟨1403, 12, 30⟩ := by
    decide +kernel
  have hesfand : persian.reckoning.localDate esfand.date.dayNumber = ⟨1408, 12, 29⟩ := by
    decide +kernel
  obtain ⟨-, hmonth, -⟩ := addMany_spec hmonths
  obtain ⟨-, -, hyear⟩ := addMany_spec hyears
  rw [hmordad, hfarvardin] at hmonth
  rw [hleapDay, hesfand] at hyear
  exact ⟨⟨hmonths, (hmonth rfl).2⟩, hyears, (hyear rfl).2.2⟩

end Calendar

end CasualDate
