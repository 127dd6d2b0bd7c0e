import CasualDate.Proofs.Error.Answers
import CasualDate.Proofs.Reading.Moment
import CasualDate.Proofs.Reckoning.Named
import CasualDate.Proofs.Text.Decimal

/-!
# The forms of one date

A day of a month of a year can be written in numbers with the same mark between them, or with the name
of the month. All forms in numbers name one date, and all forms with a name, too
(`names_iff_of_mem_numericForms`, `names_iff_of_mem_namedForms`). But only numbers have their year
filled up to a full one: "6/5/21" is in the 2000s and "June 5 21" in the first century. So all forms
agree exactly from year 100 on and where no year in question has the day (`formsAgree_iff`).
-/

namespace CasualDate

namespace DateExpr

variable {now x : Date} {m : Month} {month day y z : Nat} {cause : InvalidDate}

theorem inYear_eq_ok_iff : inYear y month day cause = .ok x ↔ x.civil = ⟨y, month, day⟩ := by
  rw [Date.civil_eq_iff]
  unfold inYear
  split
  · next hlarge =>
    -- No date is in so late a year.
    have hle := x.year_le
    unfold maxYear at hlarge
    exact iff_of_false (by simp) (by omega)
  · rw [← Date.ofCivil?_eq_some_iff]
    cases Date.ofCivil? y month day <;> simp

theorem evaluate_numericFull_eq_ok_iff : (numericFull month day y).evaluate now = .ok x ↔
    ∃ z, fullYear now.year y = .ok z ∧ x.civil = ⟨z, month, day⟩ := by
  rw [evaluate, bind_eq_ok_iff]
  simp only [orRefuse_eq_ok_iff, inYear_eq_ok_iff]

theorem evaluate_monthDayYear_eq_ok_iff :
    (monthDayYear m day y).evaluate now = .ok x ↔ x.civil = ⟨y, m.number, day⟩ := by
  rw [evaluate, orRefuse_eq_ok_iff, inYear_eq_ok_iff]

theorem fullYear_of_le (reference : Int) (h : 100 ≤ y) : fullYear reference y = .ok y := by
  rw [fullYear, if_pos h]

theorem fullYear_bounds {reference : Int} (hy : y < 100) (h : fullYear reference y = .ok z) :
    1900 ≤ z ∧ z < 2100 := by
  unfold fullYear at h
  rw [if_neg (by omega)] at h
  split at h
  · cases h
  · split at h <;> cases h <;> omega

end DateExpr

/-- The number of the month in digits. -/
def Month.literal (m : Month) : Word :=
  .literal ⟨m.number, Text.lt_countLimit (by cases m <;> decide)⟩

namespace MomentExpr

open DateExpr

variable {reference t : Instant} {ws : List Word} {m : Month} {d y : Text.Count}

/-- The words are read as a whole, as an expression of this instant. -/
def Names (reference : Instant) (ws : List Word) (t : Instant) : Prop :=
  ∃ e, Reads parse? ws e [] ∧ e.evaluate reference = .ok t

/-- The day, the month and the year in numbers; before dots the day comes first. -/
def numericForms (m : Month) (d y : Text.Count) : List (List Word) :=
  [[m.literal, .slash, .literal d, .slash, .literal y],
    [m.literal, .dash, .literal d, .dash, .literal y],
    [.literal d, .dot, m.literal, .dot, .literal y]]

/-- The day and the year in numbers with the name of the month. -/
def namedForms (m : Month) (d y : Text.Count) : List (List Word) :=
  [[.month m, .literal d, .literal y], [.literal d, .month m, .literal y]]

theorem names_iff {e : MomentExpr} (h : Reads parse? ws e []) :
    Names reference ws t ↔ e.evaluate reference = .ok t := by
  refine ⟨?_, fun he => ⟨e, h, he⟩⟩
  rintro ⟨e', ⟨_, h'⟩, he⟩
  obtain ⟨_, h⟩ := h
  rw [h] at h'
  cases h'
  exact he

theorem evaluate_date_eq_ok_iff {date : DateExpr} :
    (dateTime date .unstated).evaluate reference = .ok t ↔
      t.time = reference.time ∧ date.evaluate reference.date = .ok t.date := by
  rw [evaluate, bind_eq_ok_iff]
  constructor
  · rintro ⟨day, hday, h⟩
    cases h
    exact ⟨rfl, hday⟩
  · rintro ⟨htime, hday⟩
    refine ⟨t.date, hday, ?_⟩
    show Except.ok ⟨t.date, reference.time⟩ = Except.ok t
    rw [← htime]

theorem reads_numericForm (h : ws ∈ numericForms m d y) :
    Reads parse? ws (dateTime (numericFull m.number d y) .unstated) [] := by
  simp only [numericForms, List.mem_cons, List.not_mem_nil, or_false] at h
  rcases h with rfl | rfl | rfl
  · exact reads_date (by simp [Month.literal, isOpening])
      (reads_numericFull (by rfl) (by simp)) timeAfter_nil
  · exact reads_date (by simp [Month.literal, isOpening])
      (reads_numericFull (by rfl) (by simp)) timeAfter_nil
  · exact reads_date (by simp [isOpening])
      (reads_numericFull (by rfl) (by simp)) timeAfter_nil

theorem reads_namedForm (hd : d.val ≤ 31) (h : ws ∈ namedForms m d y) :
    Reads parse? ws (dateTime (monthDayYear m d y) .unstated) [] := by
  simp only [namedForms, List.mem_cons, List.not_mem_nil, or_false] at h
  rcases h with rfl | rfl
  · exact reads_date (by simp [isOpening])
      (reads_monthDayYear hd (by simp [Word.multiplies]) (reads_year (by simp))) timeAfter_nil
  · exact reads_date (by simp [isOpening])
      (reads_dayMonthYear hd (reads_year (by simp))) timeAfter_nil

theorem names_iff_of_mem_numericForms (h : ws ∈ numericForms m d y) :
    Names reference ws t ↔ t.time = reference.time ∧
      ∃ z, fullYear reference.date.year y = .ok z ∧ t.date.civil = ⟨z, m.number, d⟩ := by
  rw [names_iff (reads_numericForm h), evaluate_date_eq_ok_iff, evaluate_numericFull_eq_ok_iff]

theorem names_iff_of_mem_namedForms (hd : d.val ≤ 31) (h : ws ∈ namedForms m d y) :
    Names reference ws t ↔
      t.time = reference.time ∧ t.date.civil = ⟨y.val, m.number, d⟩ := by
  rw [names_iff (reads_namedForm hd h), evaluate_date_eq_ok_iff, evaluate_monthDayYear_eq_ok_iff]

/-- All forms of the date name the same instant, or none names one. -/
def FormsAgree (reference : Instant) (m : Month) (d y : Text.Count) : Prop :=
  ∀ ws ∈ numericForms m d y ++ namedForms m d y, ∀ ws' ∈ numericForms m d y ++ namedForms m d y,
    ∀ t, Names reference ws t ↔ Names reference ws' t

theorem exists_civil_eq {z : Nat} (hz : z < 2100) (h : gregorian.HasDate ⟨z, m.number, d⟩) :
    ∃ x : Date, x.civil = ⟨z, m.number, d⟩ := by
  obtain ⟨x, hx⟩ := Date.exists_ofCivil? (by omega) (by omega) h
  exact ⟨x, Date.civil_eq_iff.2 (Date.ofCivil?_eq_some_iff.1 hx)⟩

theorem not_formsAgree {z : Nat} (hd : d.val ≤ 31) (hy : y.val < 100)
    (hz : z = y.val ∨ fullYear reference.date.year y = .ok z)
    (hdate : gregorian.HasDate ⟨z, m.number, d⟩) : ¬FormsAgree reference m d y := by
  intro hagree
  have hlt : z < 2100 := by
    rcases hz with rfl | hfull
    · omega
    · exact (fullYear_bounds hy hfull).2
  obtain ⟨x, hx⟩ := exists_civil_eq hlt hdate
  have hnumeric : [m.literal, .slash, .literal d, .slash, .literal y] ∈ numericForms m d y :=
    List.mem_cons_self
  have hnamed : [.month m, .literal d, .literal y] ∈ namedForms m d y :=
    List.mem_cons_self
  -- The instant on this date is named by the one kind of form and not by the other.
  have hiff := hagree _ (List.mem_append_left _ hnumeric) _ (List.mem_append_right _ hnamed)
    ⟨x, reference.time⟩
  rw [names_iff_of_mem_numericForms hnumeric, names_iff_of_mem_namedForms hd hnamed] at hiff
  simp only [true_and, hx, LocalDate.mk.injEq, and_true, Int.natCast_inj] at hiff
  rcases hz with rfl | hfull
  · obtain ⟨full, hfull, heq⟩ := hiff.2 rfl
    have := (fullYear_bounds hy hfull).1
    omega
  · have := hiff.1 ⟨z, hfull, rfl⟩
    have := (fullYear_bounds hy hfull).1
    omega

/-- All forms of a date are read as a whole. They agree exactly if the year is no short one, or if the
day exists neither in the short year nor in the full one that it stands for. -/
theorem formsAgree_iff (reference : Instant) (m : Month) (d y : Text.Count) (hd : d.val ≤ 31) :
    (∀ ws ∈ numericForms m d y ++ namedForms m d y, ∃ e, Reads parse? ws e []) ∧
      (FormsAgree reference m d y ↔ 100 ≤ y.val ∨
        ∀ z : Nat, z = y.val ∨ fullYear reference.date.year y = .ok z →
          ¬gregorian.HasDate ⟨z, m.number, d⟩) := by
  refine ⟨fun ws hws => ?_, fun hagree => ?_, fun hyear ws hws ws' hws' t => ?_⟩
  · rcases List.mem_append.1 hws with hws | hws
    · exact ⟨_, reads_numericForm hws⟩
    · exact ⟨_, reads_namedForm hd hws⟩
  · rcases Nat.lt_or_ge y.val 100 with hlt | hge
    · exact .inr fun z hz hdate => not_formsAgree hd hlt hz hdate hagree
    · exact .inl hge
  · -- In both cases a form in numbers names what is on the date in the year as it is written.
    have hfull : (∃ z, fullYear reference.date.year y = .ok z ∧
        t.date.civil = ⟨z, m.number, d⟩) ↔ t.date.civil = ⟨y.val, m.number, d⟩ := by
      rcases hyear with hge | hnone
      · simp [fullYear_of_le _ hge]
      · have hciv (z : Nat) (hz : z = y.val ∨ fullYear reference.date.year y = .ok z) :
            t.date.civil ≠ ⟨z, m.number, d⟩ := fun heq =>
          hnone z hz (heq ▸ gregorian_lawful.hasDate_localDate t.date.dayNumber)
        refine iff_of_false ?_ (hciv _ (.inl rfl))
        rintro ⟨z, hz, heq⟩
        exact hciv z (.inr hz) heq
    have hform : ∀ us ∈ numericForms m d y ++ namedForms m d y, Names reference us t ↔
        t.time = reference.time ∧ t.date.civil = ⟨y.val, m.number, d⟩ := by
      intro us hus
      rcases List.mem_append.1 hus with hus | hus
      · rw [names_iff_of_mem_numericForms hus, hfull]
      · exact names_iff_of_mem_namedForms hd hus
    rw [hform ws hws, hform ws' hws']

/-- All forms of 5 June 2023 agree, as on 17 April 2024. -/
theorem formsAgree_june5_2023 :
    let april17 : Instant := ⟨⟨738993, by decide, by decide⟩, .midnight⟩
    FormsAgree april17 .june ⟨5, by decide⟩ ⟨2023, by decide⟩ := by
  intro april17
  obtain ⟨-, hagree⟩ := formsAgree_iff april17 .june ⟨5, by decide⟩ ⟨2023, by decide⟩ (by decide)
  exact hagree.2 (.inl (by decide))

/-- "6/5/21" is in the year 2021, and "June 5 21" in the year 21. -/
theorem not_formsAgree_june5_21 :
    let april17 : Instant := ⟨⟨738993, by decide, by decide⟩, .midnight⟩
    let june5 : Instant := ⟨⟨737946, by decide, by decide⟩, .midnight⟩
    let ancient : Instant := ⟨⟨7461, by decide, by decide⟩, .midnight⟩
    let five : Text.Count := ⟨5, by decide⟩
    let short : Text.Count := ⟨21, by decide⟩
    Names april17 [Month.june.literal, .slash, .literal five, .slash, .literal short] june5 ∧
      Names april17 [.month .june, .literal five, .literal short] ancient ∧
      ¬FormsAgree april17 .june five short := by
  intro april17 june5 ancient five short
  have hfive : five.val ≤ 31 := by decide
  have hfull : fullYear april17.date.year short = .ok 2021 := by decide +kernel
  have hjune : june5.date.civil = ⟨2021, 6, 5⟩ := by decide +kernel
  have hancient : ancient.date.civil = ⟨21, 6, 5⟩ := by decide +kernel
  refine ⟨?_, ?_, not_formsAgree hfive (by decide) (.inl rfl) (by decide)⟩
  · exact (names_iff_of_mem_numericForms List.mem_cons_self).2 ⟨rfl, 2021, hfull, hjune⟩
  · exact (names_iff_of_mem_namedForms hfive List.mem_cons_self).2 ⟨rfl, hancient⟩

end MomentExpr

end CasualDate
