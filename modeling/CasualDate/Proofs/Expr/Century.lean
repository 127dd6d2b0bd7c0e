import CasualDate.Proofs.Expr.Breakdown
import CasualDate.Proofs.Expr.DateForms

/-!
# The century of a two-digit year

A year below one hundred in a date in numbers stands for the year of the 2000s if that is at most ten
years ahead, and else for the year of the 1900s (`windowYear`). But the current year is looked at as an
unsigned word of 32 bits (`fullYear_eq_of_yearWord`). A year before year 0 becomes a word so large that
every year lies behind it, or that ten years more do not fit. So the rule is kept exactly from year 0
on, and where it makes no difference since neither year has the day (`resolvesIn_windowYear_iff`).
-/

namespace CasualDate.DateExpr

variable {now : Date} {month day year z z' : Nat} {reference : Int}

/-- The year that a two-digit one should stand for. -/
def windowYear (reference : Int) (year : Nat) : Nat :=
  if 2000 + (year : Int) ≤ reference + 10 then 2000 + year else 1900 + year

/-- A year as an unsigned word of 32 bits. -/
def yearWord (year : Int) : Nat :=
  (year % Text.countLimit).toNat

theorem yearWord_of_nonneg (now : Date) (h : 0 ≤ now.year) : (yearWord now.year : Int) = now.year := by
  have := now.year_le
  unfold yearWord Text.countLimit
  omega

theorem yearWord_of_neg (now : Date) (h : now.year < 0) :
    (yearWord now.year : Int) = now.year + Text.countLimit := by
  have := now.neg_le_year
  unfold yearWord Text.countLimit
  omega

/-- The ten years are added to the word, and compared as a word. -/
theorem fullYear_eq_of_yearWord (now : Date) (hyear : year < 100) : fullYear now.year year =
    if Text.countLimit ≤ yearWord now.year + 10 then .error (.broken .noCentury)
    else if yearWord now.year + 10 < 2000 + year then .ok (1900 + year)
    else .ok (2000 + year) := by
  have hlow := now.neg_le_year
  have hhigh := now.year_le
  rw [fullYear, if_neg (by omega)]
  rcases Int.lt_or_le now.year 0 with hneg | hnonneg
  · have hword := yearWord_of_neg now hneg
    unfold Text.countLimit at *
    by_cases hlast : -10 ≤ now.year
    · rw [if_pos (by omega), if_pos (by omega)]
    · rw [if_neg (by omega), if_neg (by omega), if_neg (by omega), if_neg (by omega)]
  · have hword := yearWord_of_nonneg now hnonneg
    unfold Text.countLimit at *
    rw [if_neg (by omega), if_neg (show ¬4294967296 ≤ yearWord now.year + 10 by omega)]
    by_cases hbehind : now.year + 10 < 2000 + year
    · rw [if_pos ⟨hnonneg, hbehind⟩, if_pos (by omega)]
    · rw [if_neg (by omega), if_neg (by omega)]

theorem fullYear_eq_windowYear (hyear : year < 100) (h : 0 ≤ now.year) :
    fullYear now.year year = .ok (windowYear now.year year) := by
  have hhigh := now.year_le
  have hword := yearWord_of_nonneg now h
  rw [fullYear_eq_of_yearWord now hyear, if_neg (by unfold Text.countLimit; omega), windowYear]
  by_cases hahead : 2000 + (year : Int) ≤ now.year + 10
  · rw [if_pos hahead, if_neg (by omega)]
  · rw [if_neg hahead, if_pos (by omega)]

/-- From a year before -10 every year seems to lie behind. -/
theorem fullYear_of_lt_neg_ten (hyear : year < 100) (h : now.year < -10) :
    fullYear now.year year = .ok (2000 + year) := by
  have hlow := now.neg_le_year
  have hword := yearWord_of_neg now (by omega)
  unfold Text.countLimit at hword
  rw [fullYear_eq_of_yearWord now hyear, if_neg (by unfold Text.countLimit; omega), if_neg (by omega)]

/-- From one of the ten years before year 0, ten years more do not fit into a word. -/
theorem fullYear_of_neg_ten_le (hyear : year < 100) (hlow : -10 ≤ now.year) (hneg : now.year < 0) :
    fullYear now.year year = .error (.broken .noCentury) := by
  have hword := yearWord_of_neg now hneg
  rw [fullYear_eq_of_yearWord now hyear, if_pos (by omega)]

theorem windowYear_of_neg (h : reference < 0) : windowYear reference year = 1900 + year := by
  rw [windowYear, if_neg (by omega)]

/-- The date in numbers is the one in the year `z`, and is refused if this year has no such day. -/
structure ResolvesIn (now : Date) (month day year z : Nat) : Prop where
  finds : gregorian.HasDate ⟨z, month, day⟩ →
    ∃ x : Date, x.civil = ⟨z, month, day⟩ ∧ (numericFull month day year).evaluate now = .ok x
  refuses : ¬gregorian.HasDate ⟨z, month, day⟩ →
    ∃ error, (numericFull month day year).evaluate now = .error (.refused error)

theorem resolvesIn_of_fullYear (hz : z < 2100) (h : fullYear now.year year = .ok z) :
    ResolvesIn now month day year z where
  finds hdate := by
    obtain ⟨x, hx⟩ := Date.exists_ofCivil? (by omega) (by omega) hdate
    have hcivil := Date.civil_eq_iff.2 (Date.ofCivil?_eq_some_iff.1 hx)
    exact ⟨x, hcivil, evaluate_numericFull_eq_ok_iff.2 ⟨z, h, hcivil⟩⟩
  refuses hdate := by
    have hnone : Date.ofCivil? z month day = none := by rw [Date.ofCivil?, if_neg hdate]
    have hsmall : ¬maxYear < z := by
      unfold maxYear
      omega
    refine ⟨.invalidDate (.yearMonthDay z month day), ?_⟩
    rw [evaluate, h, ok_bind, inYear, if_neg hsmall, hnone]
    rfl

namespace ResolvesIn

theorem eq_or_not_hasDate (h : ResolvesIn now month day year z)
    (h' : ResolvesIn now month day year z') :
    z = z' ∨ ¬gregorian.HasDate ⟨z, month, day⟩ ∧ ¬gregorian.HasDate ⟨z', month, day⟩ := by
  by_cases hdate : gregorian.HasDate ⟨z, month, day⟩ <;>
    by_cases hdate' : gregorian.HasDate ⟨z', month, day⟩
  · obtain ⟨x, hx, heval⟩ := h.finds hdate
    obtain ⟨x', hx', heval'⟩ := h'.finds hdate'
    rw [heval] at heval'
    cases heval'
    rw [hx] at hx'
    have hyears := congrArg LocalDate.year hx'
    exact .inl (Int.ofNat_inj.1 hyears)
  · obtain ⟨x, -, heval⟩ := h.finds hdate
    obtain ⟨error, herror⟩ := h'.refuses hdate'
    rw [heval] at herror
    cases herror
  · obtain ⟨error, herror⟩ := h.refuses hdate
    obtain ⟨x, -, heval⟩ := h'.finds hdate'
    rw [heval] at herror
    cases herror
  · exact .inr ⟨hdate, hdate'⟩

theorem of_not_hasDate (h : ResolvesIn now month day year z)
    (hdate : ¬gregorian.HasDate ⟨z, month, day⟩) (hdate' : ¬gregorian.HasDate ⟨z', month, day⟩) :
    ResolvesIn now month day year z' :=
  ⟨fun hhas => absurd hhas hdate', fun _ => h.refuses hdate⟩

theorem ne_broken (h : ResolvesIn now month day year z) (cause : Breakdown) :
    (numericFull month day year).evaluate now ≠ .error (.broken cause) := by
  intro hcause
  by_cases hdate : gregorian.HasDate ⟨z, month, day⟩
  · obtain ⟨x, -, heval⟩ := h.finds hdate
    rw [hcause] at heval
    cases heval
  · obtain ⟨error, herror⟩ := h.refuses hdate
    rw [hcause] at herror
    cases herror

end ResolvesIn

/-- A date in numbers with a two-digit year is in the year that this stands for, exactly if the current
year is not before year 0, or if it is before year -10 and neither century has the day. -/
theorem resolvesIn_windowYear_iff (now : Date) (month day : Nat) (hyear : year < 100) :
    ResolvesIn now month day year (windowYear now.year year) ↔
      0 ≤ now.year ∨ now.year < -10 ∧ ¬gregorian.HasDate ⟨1900 + year, month, day⟩ ∧
        ¬gregorian.HasDate ⟨2000 + year, month, day⟩ := by
  rcases Int.lt_or_le now.year 0 with hneg | hnonneg
  · have hout : ¬0 ≤ now.year := by omega
    rw [windowYear_of_neg hneg]
    by_cases hlow : -10 ≤ now.year
    · refine iff_of_false (fun h => h.ne_broken .noCentury ?_) (by omega)
      rw [evaluate, fullYear_of_neg_ten_le hyear hlow hneg]
      rfl
    · have hresolves : ResolvesIn now month day year (2000 + year) :=
        resolvesIn_of_fullYear (by omega) (fullYear_of_lt_neg_ten hyear (by omega))
      constructor
      · intro h
        rcases h.eq_or_not_hasDate hresolves with heq | hnone
        · omega
        · exact .inr ⟨by omega, by simpa using hnone⟩
      · rintro (h | ⟨-, hnone, hnone'⟩)
        · exact absurd h hout
        · exact hresolves.of_not_hasDate (by simpa using hnone') (by simpa using hnone)
  · refine iff_of_true (resolvesIn_of_fullYear ?_ (fullYear_eq_windowYear hyear hnonneg)) (.inl hnonneg)
    unfold windowYear
    split <;> omega

/-- On 17 April 2024, "2/29/34" is still in the 2000s, and refused there. -/
theorem resolvesIn_windowYear_leapDay :
    let april17 : Date := ⟨738993, by decide, by decide⟩
    ResolvesIn april17 2 29 34 2034 ∧
      ∃ error, (numericFull 2 29 34).evaluate april17 = .error (.refused error) := by
  intro april17
  have hyear : april17.year = 2024 := by decide +kernel
  have hresolves := (resolvesIn_windowYear_iff april17 2 29 (show 34 < 100 by decide)).2
    (.inl (by rw [hyear]; decide))
  rw [hyear] at hresolves
  exact ⟨hresolves, hresolves.refuses (by decide)⟩

/-- On 1 January of year -11 "6/5/21" is in the 2000s, 2032 years ahead, and a year later it has no
century. -/
theorem not_resolvesIn_windowYear :
    let eleven : Date := ⟨-4382, by decide, by decide⟩
    let ten : Date := ⟨-4017, by decide, by decide⟩
    ¬ResolvesIn eleven 6 5 21 (windowYear eleven.year 21) ∧
      ¬ResolvesIn ten 6 5 21 (windowYear ten.year 21) := by
  intro eleven ten
  have heleven : eleven.year = -11 := by decide +kernel
  have hten : ten.year = -10 := by decide +kernel
  constructor
  · intro h
    rw [windowYear_of_neg (by omega)] at h
    have hlate : ResolvesIn eleven 6 5 21 2021 :=
      resolvesIn_of_fullYear (by decide) (fullYear_of_lt_neg_ten (by decide) (by omega))
    rcases h.eq_or_not_hasDate hlate with heq | ⟨-, hdate⟩
    · exact absurd heq (by decide)
    · exact hdate (by decide)
  · intro h
    refine h.ne_broken .noCentury ?_
    rw [evaluate, fullYear_of_neg_ten_le (by decide) (by omega) (by omega)]
    rfl

end CasualDate.DateExpr
