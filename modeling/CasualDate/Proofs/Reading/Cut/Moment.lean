import CasualDate.Proofs.Reading.Cut.Date

/-!
# Moments with the words behind them cut off

A moment is read of its own words as it is read in front of further words
(`MomentExpr.run_of_append`). A date in it is followed by a time or by the end of the words; where a
year fails to be read there, it fails without the words behind the time too, since the hour of the
time is the number that was no year (`MomentExpr.run_timeAfter_of_append`). The words of a duration
or a time are no date with the words behind cut off, if they are none with them.
-/

namespace CasualDate

open Reading

variable {ws mid cut us rest : List Word} {w : Word} {n : Nat}

namespace TimeExpr

variable {t : TimeExpr} {o : Option Nat}

theorem run_minutesThen_of_append (hmid : Number.Ends cut mid)
    (h : minutesThen.run (ws ++ cut) = some (o, mid ++ cut)) :
    minutesThen.run ws = some (o, mid) ∧ Number.Ends cut ws := by
  unfold minutesThen at h ⊢
  rcases or_of_run_ifReads_append (fun _ _ _ => .perhaps Number.looksFor_known) h with
    ⟨_, us, hcolon, h⟩ | ⟨hcolon, h⟩
  · have hcolon := run_exactly_of_append hcolon
    have hends : Number.Ends cut ws := by
      obtain ⟨w, rfl, hw⟩ := exists_of_run_word hcolon
      exact .cons (by cases w <;> first | rfl | cases hw)
    refine ⟨?_, hends⟩
    rw [run_ifReads_of_run hcolon]
    unfold perhaps at h ⊢
    rcases or_of_run_ifReads_append (p := Word.isKnown) (fun _ _ _ => .pure _) h with
      ⟨n, vs, hnumber, h⟩ | ⟨hnumber, h⟩
    · obtain ⟨rfl, rfl⟩ := run_pure_append h
      exact run_ifReads_of_run (Number.run_of_append hmid hnumber)
    · obtain ⟨rfl, rfl⟩ := run_pure_append h
      exact run_ifReads_of_none (hmid.number hnumber)
  · obtain ⟨rfl, rfl⟩ := run_pure_append h
    exact ⟨run_ifReads_of_none (run_exactly_eq_none_of_append hcolon), hmid⟩

theorem run_hourThen_of_append (hmid : Number.Ends cut mid)
    (h : (hourThen n).run (ws ++ cut) = some (t, mid ++ cut)) :
    (hourThen n).run ws = some (t, mid) ∧ Number.Ends cut ws := by
  unfold hourThen at h ⊢
  obtain ⟨minute, us, hminute, h⟩ := exists_of_run_bind_append
    (fun _ _ _ => .ifReads (.known rfl) (fun _ _ _ => .pure _) (.pure _)) h
  rcases or_of_run_ifReads_append (p := Word.isKnown) (fun _ _ _ => .pure _) h with
    ⟨half, vs, hhalf, h⟩ | ⟨hhalf, h⟩
  · obtain ⟨rfl, rfl⟩ := run_pure_append h
    have hhalf := run_word_of_append hhalf
    have hends : Number.Ends cut us := by
      obtain ⟨w, rfl, hw⟩ := exists_of_run_word hhalf
      exact .cons (by cases w <;> first | rfl | cases hw)
    obtain ⟨hminute, hends⟩ := run_minutesThen_of_append hends hminute
    refine ⟨?_, hends⟩
    rw [run_bind_of_run hminute, run_ifReads_of_run hhalf]
    rfl
  · obtain ⟨rfl, rfl⟩ := run_pure_append h
    obtain ⟨hminute, hends⟩ := run_minutesThen_of_append hmid hminute
    refine ⟨?_, hends⟩
    rw [run_bind_of_run hminute, run_ifReads_of_none (run_word_eq_none_of_append hhalf)]
    rfl

theorem run_hourThen_cons (hw : DateExpr.endsHour w = false) (rest : List Word) :
    (hourThen n).run (w :: rest) = some (bare n, w :: rest) := by
  have hcolon : w ≠ .colon := by
    rintro rfl
    cases hw
  have hhalf : meridiem? w = none := by cases w <;> first | rfl | cases hw
  simp [hourThen, minutesThen, run_ifReads, hcolon, hhalf]

theorem or_of_run_append (hmid : Number.Ends cut mid)
    (h : (reading parse?).run (ws ++ cut) = some (t, mid ++ cut)) :
    (word namedTime?).run ws = some (t, mid) ∨
    (word namedTime?).run ws = none ∧ ∃ hour us,
      (reading Number.parse?).run (ws ++ cut) = some (hour, us ++ cut) ∧
      (reading Number.parse?).run ws = some (hour, us) ∧
      (hourThen hour).run (us ++ cut) = some (t, mid ++ cut) ∧
      (hourThen hour).run us = some (t, mid) := by
  rw [reading_parse?, run_orElse, Option.or_eq_some_iff] at h
  rcases h with h | ⟨hnamed, h⟩
  · exact .inl (run_word_of_append h)
  · obtain ⟨hour, us, hnumber, h⟩ := exists_of_run_bind_append (fun _ _ _ => looksFor_hourThen _) h
    obtain ⟨hhour, hends⟩ := run_hourThen_of_append hmid h
    exact .inr ⟨run_word_eq_none_of_append hnamed, hour, us, hnumber,
      Number.run_of_append hends hnumber, h, hhour⟩

theorem run_of_append (hmid : Number.Ends cut mid)
    (h : (reading parse?).run (ws ++ cut) = some (t, mid ++ cut)) :
    (reading parse?).run ws = some (t, mid) ∧ Number.Ends cut ws := by
  rw [reading_parse?, run_orElse]
  rcases or_of_run_append hmid h with hnamed | ⟨hnamed, hour, us, hnumber, hnumber', hhour, hhour'⟩
  · refine ⟨by rw [hnamed]; rfl, ?_⟩
    obtain ⟨w, rfl, hw⟩ := exists_of_run_word hnamed
    exact .cons (by cases w <;> first | rfl | cases hw)
  · refine ⟨by rw [hnamed, run_bind_of_run hnumber', hhour']; rfl, ?_⟩
    exact .of_run (run_hourThen_of_append hmid hhour).2 hnumber

end TimeExpr

theorem TimeExpr.endsHour_of_run_hourThen {t : TimeExpr}
    (h : (hourThen n).run ([] ++ cut) = some (t, mid ++ cut)) :
    ∀ w ∈ cut.head?, DateExpr.endsHour w = false := by
  obtain ⟨minute, us, hminute, h⟩ := exists_of_run_bind_append
    (fun _ _ _ => .ifReads (.known rfl) (fun _ _ _ => .pure _) (.pure _)) h
  rcases or_of_run_ifReads_append (fun _ _ _ => .perhaps Number.looksFor_known) hminute with
    ⟨_, vs, hcolon, -⟩ | ⟨hcolon, hpure⟩
  · cases run_exactly_of_append hcolon
  · obtain ⟨rfl, rfl⟩ := run_pure_append hpure
    rcases or_of_run_ifReads_append (p := Word.isKnown) (fun _ _ _ => .pure _) h with
      ⟨half, vs, hhalf, -⟩ | ⟨hhalf, -⟩
    · cases run_word_of_append hhalf
    · rintro w hw
      cases cut with
      | nil => cases hw
      | cons v cut =>
        cases hw
        cases w <;> first | rfl | (simp at hcolon; done) | simp [meridiem?] at hhalf

namespace DateExpr

variable {t : TimeExpr} {d : Duration}

theorem Ends.nil : Ends cut [] :=
  ⟨.nil, fun _ => run_reading_nil _⟩

theorem run_year?_eq_none (h : (reading Number.parse?).run ws = none)
    (hcomma : ∀ w ∈ ws.head?, w ≠ .comma) : (reading year?).run ws = none := by
  have hcomma : (exactly .comma).run ws = none :=
    run_exactly_eq_none fun rest hws => hcomma .comma (by simp [hws]) rfl
  rw [reading_year?, run_ifReads_of_none hcomma]
  exact run_of_none h _

theorem run_year?_of_number (h : (reading Number.parse?).run ws = some (n, rest)) :
    (reading year?).run ws = if rest.head?.any endsHour then none else some (n, rest) := by
  obtain ⟨w, us, rfl, hw⟩ := Number.exists_of_run h
  have hcomma : (exactly .comma).run (w :: us) = none := by
    refine run_exactly_eq_none fun rest hws => ?_
    cases hws
    cases hw
  rw [reading_year?, run_ifReads_of_none hcomma, run_bind_of_run h, StateT.run_bind, run_unlessNext]
  split <;> rfl

theorem run_year?_comma (ws : List Word) :
    (reading year?).run (.comma :: ws) =
      ((reading Number.parse?).run ws).bind fun r => if 1000 ≤ r.1 then some r else none := by
  have hcomma : (exactly .comma).run (.comma :: ws) = some ((), ws) := by simp
  rw [reading_year?, run_ifReads_of_run hcomma, StateT.run_bind]
  cases (reading Number.parse?).run ws with
  | none => rfl
  | some r =>
    by_cases hr : 1000 ≤ r.1 <;> simp [hr]

/-- Words that are a time and no year are no year without the words behind the time. -/
theorem run_year?_eq_none_of_time (hmid : Number.Ends cut mid)
    (htime : (reading TimeExpr.parse?).run (ws ++ cut) = some (t, mid ++ cut))
    (h : (reading year?).run (ws ++ cut) = none) : (reading year?).run ws = none := by
  rcases TimeExpr.or_of_run_append hmid htime with hnamed | ⟨-, hour, us, hnumber, hnumber', hhour, -⟩
  · obtain ⟨w, rfl, hw⟩ := exists_of_run_word hnamed
    have hnumber : (reading Number.parse?).run (w :: mid) = none :=
      run_reading_eq_none.2 (Number.parse?_eq_none (by cases w <;> first | rfl | cases hw))
    refine run_year?_eq_none hnumber ?_
    rintro v ⟨⟩ rfl
    cases hw
  · rw [run_year?_of_number hnumber] at h
    rw [run_year?_of_number hnumber']
    cases us with
    | nil =>
      have hhead := TimeExpr.endsHour_of_run_hourThen hhour
      cases cut with
      | nil => exact h
      | cons v cut => simp [hhead v rfl] at h
    | cons v us =>
      cases hv : endsHour v with
      | true => simp [hv]
      | false => simp [hv] at h

theorem run_year?_comma_eq_none_of_time (hmid : Number.Ends cut mid)
    (htime : (reading TimeExpr.parse?).run (ws ++ cut) = some (t, mid ++ cut))
    (h : (reading year?).run (.comma :: ws ++ cut) = none) :
    (reading year?).run (.comma :: ws) = none := by
  rw [List.cons_append, run_year?_comma] at h
  rw [run_year?_comma]
  rcases TimeExpr.or_of_run_append hmid htime with hnamed | ⟨-, hour, us, hnumber, hnumber', -, -⟩
  · obtain ⟨w, rfl, hw⟩ := exists_of_run_word hnamed
    have hnumber : (reading Number.parse?).run (w :: mid) = none :=
      run_reading_eq_none.2 (Number.parse?_eq_none (by cases w <;> first | rfl | cases hw))
    rw [hnumber]
    rfl
  · rw [hnumber] at h
    rw [hnumber']
    simpa using h

/-- A duration that leads to no date in front of `cut` leads to none without it, if there is no
date after it that it would count from. -/
theorem run_durationThen_eq_none_of_append
    (hdate : afterOrFrom? w = some () → (reading parse?).run (rest ++ cut) = none →
      (reading parse?).run rest = none)
    (h : (durationThen d).run (w :: rest ++ cut) = none) :
    (durationThen d).run (w :: rest) = none := by
  unfold durationThen at h ⊢
  split
  · rfl
  · next hsub =>
    rw [if_neg hsub, run_orElse, Option.or_eq_none_iff] at h
    obtain ⟨hago, hfrom⟩ := h
    rw [run_orElse, Option.or_eq_none_iff]
    constructor
    · by_cases hw : w = .agoWord
      · simp [hw] at hago
      · simp [hw]
    · cases hw : afterOrFrom? w with
      | none => simp [hw]
      | some _ =>
        cases hnone : (reading parse?).run (rest ++ cut) with
        | none => simp [hw, hdate hw hnone]
        | some r => simp [hw, hnone] at hfrom

theorem run_dayThen_ne_none (m : Month) (n : Nat) (ws : List Word) :
    (dayThen m n).run ws ≠ none := by
  cases h : (reading year?).run ws <;> simp [dayThen, run_ifReads, h]

theorem run_eq_none (h : (reading parse?).run ws = none) :
    (reading dayFirst?).run ws = none ∧ byDuration.run ws = none := by
  rw [reading_parse?] at h
  simp only [run_orElse, Option.or_eq_none_iff] at h
  exact ⟨h.2.2.1, h.2.2.2.2.1⟩

end DateExpr

namespace MomentExpr

variable {e : MomentExpr} {date : DateExpr} {time : TimeExpr}

theorem run_timeAfter_of_append (hmid : Number.Ends cut mid)
    (h : (reading timeAfter).run (ws ++ cut) = some (time, mid ++ cut)) :
    (reading timeAfter).run ws = some (time, mid) ∧ DateExpr.Ends cut ws := by
  rw [reading_timeAfter] at h ⊢
  rcases or_of_run_ifReads_append (fun _ _ _ => TimeExpr.looksFor) h with
    ⟨_, us, hword, h⟩ | ⟨hword, h⟩
  · have hword := run_word_of_append hword
    obtain ⟨htime, -⟩ := TimeExpr.run_of_append hmid h
    refine ⟨by rw [run_ifReads_of_run hword, htime], ?_⟩
    obtain ⟨w, rfl, hw⟩ := exists_of_run_word hword
    refine ⟨.cons (by cases w <;> first | rfl | cases hw), fun hyear => ?_⟩
    cases w <;> try cases hw
    · refine DateExpr.run_year?_eq_none (run_reading_eq_none.2 (Number.parse?_eq_none rfl)) ?_
      rintro v ⟨⟩ h
      cases h
    · exact DateExpr.run_year?_comma_eq_none_of_time hmid h hyear
  · obtain ⟨htime, hends⟩ := TimeExpr.run_of_append hmid h
    refine ⟨by rw [run_ifReads_of_none (run_word_eq_none_of_append hword), htime], hends, ?_⟩
    exact DateExpr.run_year?_eq_none_of_time hmid h

theorem run_dateAfter_of_append (hmid : DateExpr.Ends cut mid)
    (h : (reading dateAfter).run (ws ++ cut) = some (date, mid ++ cut)) :
    (reading dateAfter).run ws = some (date, mid) ∧ Number.Ends cut ws := by
  rw [reading_dateAfter] at h ⊢
  rcases or_of_run_ifReads_append (fun _ _ _ => DateExpr.looksFor) h with
    ⟨_, us, hword, h⟩ | ⟨hword, h⟩
  · have hword := run_word_of_append hword
    obtain ⟨hdate, -⟩ := DateExpr.run_of_append hmid h
    refine ⟨by rw [run_ifReads_of_run hword, hdate], ?_⟩
    obtain ⟨w, rfl, hw⟩ := exists_of_run_word hword
    exact .cons (by cases w <;> first | rfl | cases hw)
  · obtain ⟨hdate, hends⟩ := DateExpr.run_of_append hmid h
    exact ⟨by rw [run_ifReads_of_none (run_word_eq_none_of_append hword), hdate], hends⟩

theorem run_dateThen_of_append (h : (dateThen date).run (ws ++ cut) = some (e, [] ++ cut)) :
    (dateThen date).run ws = some (e, []) ∧ DateExpr.Ends cut ws := by
  rcases or_of_run_ifReads_append (p := Word.isKnown) (fun _ _ _ => .pure _) h with
    ⟨time, us, htime, h⟩ | ⟨htime, h⟩
  · obtain ⟨rfl, rfl⟩ := run_pure_append h
    obtain ⟨htime, hends⟩ := run_timeAfter_of_append .nil htime
    exact ⟨run_ifReads_of_run htime, hends⟩
  · obtain ⟨rfl, rfl⟩ := run_pure_append h
    exact ⟨run_ifReads_of_none (run_reading_nil _), .nil⟩

theorem run_timeThen_of_append (h : (timeThen time).run (ws ++ cut) = some (e, [] ++ cut)) :
    (timeThen time).run ws = some (e, []) ∧ Number.Ends cut ws := by
  rcases or_of_run_ifReads_append (p := Word.isKnown) (fun _ _ _ => .pure _) h with
    ⟨date, us, hdate, h⟩ | ⟨hdate, h⟩
  · obtain ⟨rfl, rfl⟩ := run_pure_append h
    obtain ⟨hdate, hends⟩ := run_dateAfter_of_append .nil hdate
    exact ⟨run_ifReads_of_run hdate, hends⟩
  · obtain ⟨rfl, rfl⟩ := run_pure_append h
    exact ⟨run_ifReads_of_none (run_reading_nil _), .nil⟩

/-- What a duration needs to be a moment is read without `cut`; and if it makes no date of the
duration in front of `cut`, it makes none without it. -/
theorem run_shiftThen_of_append {d : Duration}
    (ih : ∀ us e, us.length < ws.length → (reading parse?).run (us ++ cut) = some (e, [] ++ cut) →
      (reading parse?).run us = some (e, []) ∧
        ((reading DateExpr.parse?).run (us ++ cut) = none →
          (reading DateExpr.parse?).run us = none))
    (h : (shiftThen d (reading parse?)).run (ws ++ cut) = some (e, [] ++ cut)) :
    (shiftThen d (reading parse?)).run ws = some (e, []) ∧ (∀ w ∈ ws.head?, w ≠ .andWord) ∧
      ((DateExpr.durationThen d).run (ws ++ cut) = none →
        (DateExpr.durationThen d).run ws = none) := by
  unfold shiftThen at h ⊢
  simp only [run_orElse, Option.or_eq_some_iff] at h ⊢
  rcases h with h | ⟨-, h | ⟨-, h⟩⟩
  · obtain ⟨_, us, hfrom, h⟩ := exists_of_run_bind_append
      (fun _ _ _ => .bind looksFor fun _ _ _ => .pure _) h
    obtain ⟨m, vs, hmoment, h⟩ :=
      exists_of_run_bind_append (p := Word.isKnown) (fun _ _ _ => .pure _) h
    obtain ⟨rfl, rfl⟩ := run_pure_append h
    have hfrom := run_word_of_append hfrom
    obtain ⟨hmoment, hdate⟩ := ih us m (length_lt_of_run_word hfrom) hmoment
    obtain ⟨w, rfl, hw⟩ := exists_of_run_word hfrom
    refine ⟨.inl ?_, ?_, DateExpr.run_durationThen_eq_none_of_append fun _ => hdate⟩
    · rw [run_bind_of_run hfrom, run_bind_of_run hmoment]
      rfl
    · rintro v ⟨⟩ rfl
      cases hw
  · obtain ⟨_, us, hbefore, h⟩ := exists_of_run_bind_append
      (fun _ _ _ => .bind looksFor fun _ _ _ => .pure _) h
    obtain ⟨m, vs, hmoment, h⟩ :=
      exists_of_run_bind_append (p := Word.isKnown) (fun _ _ _ => .pure _) h
    obtain ⟨rfl, rfl⟩ := run_pure_append h
    have hbefore := run_exactly_of_append hbefore
    obtain ⟨hmoment, -⟩ := ih us m (length_lt_of_run_word hbefore) hmoment
    obtain ⟨w, rfl, hw⟩ := exists_of_run_word hbefore
    obtain ⟨rfl, -⟩ := Option.ite_none_right_eq_some.1 hw
    refine ⟨.inr ⟨rfl, .inl ?_⟩, ?_, DateExpr.run_durationThen_eq_none_of_append nofun⟩
    · rw [run_bind_of_run hbefore, run_bind_of_run hmoment]
      rfl
    · rintro v ⟨⟩ h
      cases h
  · obtain ⟨_, us, hago, h⟩ :=
      exists_of_run_bind_append (p := Word.isKnown) (fun _ _ _ => .pure _) h
    obtain ⟨rfl, rfl⟩ := run_pure_append h
    have hago := run_exactly_of_append hago
    obtain ⟨w, rfl, hw⟩ := exists_of_run_word hago
    obtain ⟨rfl, -⟩ := Option.ite_none_right_eq_some.1 hw
    refine ⟨.inr ⟨rfl, .inr ⟨rfl, rfl⟩⟩, ?_, DateExpr.run_durationThen_eq_none_of_append nofun⟩
    rintro v ⟨⟩ h
    cases h

theorem or_of_run_dateAfter {r : DateExpr × List Word}
    (h : (reading dateAfter).run (w :: us) = some r) :
    commaOrOn? w = some () ∨ DateExpr.beginsDate w = true := by
  cases hbegins : DateExpr.beginsDate w with
  | true => exact .inr rfl
  | false =>
    cases hword : commaOrOn? w with
    | some _ => exact .inl rfl
    | none =>
      have hnone := DateExpr.run_cons_eq_none hbegins us
      simp [reading_dateAfter, run_ifReads, hword, hnone] at h

theorem run_eq_none_of_timeThen
    (htime : (reading TimeExpr.parse?).run (ws ++ cut) = some (time, us ++ cut))
    (h : (timeThen time).run (us ++ cut) = some (e, [] ++ cut))
    (hdate : (reading DateExpr.parse?).run (ws ++ cut) = none) :
    (reading DateExpr.parse?).run ws = none ∧ (reading Duration.parse?).run ws = none := by
  obtain ⟨hthen, hends⟩ := run_timeThen_of_append h
  rcases TimeExpr.or_of_run_append hends htime with
    hnamed | ⟨-, hour, vs, hnumber, hnumber', -, hhour⟩
  · obtain ⟨w, rfl, hw⟩ := exists_of_run_word hnamed
    have hcount : DateExpr.beginsCount w = false := by cases w <;> first | rfl | cases hw
    exact ⟨DateExpr.run_cons_eq_none (by cases w <;> first | rfl | cases hw) us,
      (DateExpr.run_eq_none_of_head hcount us).2.2.2⟩
  cases vs with
  | nil =>
    exact DateExpr.run_eq_none_of_number hnumber'
      (DateExpr.run_dayFirst?_of_number hnumber' (by simp)) (by simp)
  | cons w vs =>
    -- the hour is followed by the rest of a time, or by the date that the time is followed by
    have hw : DateExpr.endsHour w = true ∨ commaOrOn? w = some () ∨
        DateExpr.beginsDate w = true := by
      cases hends : DateExpr.endsHour w with
      | true => exact .inl rfl
      | false =>
        rw [TimeExpr.run_hourThen_cons hends] at hhour
        cases hhour
        cases hafter : (reading dateAfter).run (w :: vs) with
        | none =>
          rw [timeThen, run_ifReads_of_none hafter] at hthen
          cases hthen
        | some r => exact .inr (or_of_run_dateAfter hafter)
    refine DateExpr.run_eq_none_of_number hnumber' ?_ ?_
    · by_cases hmonth : ∃ m, w = .month m
      · obtain ⟨m, rfl⟩ := hmonth
        have hday := (DateExpr.run_eq_none hdate).1
        rw [DateExpr.run_dayFirst?_of_month hnumber] at hday
        rw [DateExpr.run_dayFirst?_of_month hnumber']
        split at hday
        · exact absurd hday (DateExpr.run_dayThen_ne_none _ _ _)
        · next hn => rw [if_neg hn]
      · refine DateExpr.run_dayFirst?_of_number hnumber' ?_
        rintro v ⟨⟩
        cases w <;> first
          | rfl
          | exact absurd ⟨_, rfl⟩ hmonth
          | rcases hw with hw | hw | hw <;> cases hw
    · rintro v ⟨⟩
      cases w <;> first
        | exact ⟨rfl, rfl⟩
        | rcases hw with hw | hw | hw <;> cases hw

/-- A moment that is read in front of `cut` is read without it; and if its words are no date in
front of `cut`, they are none without it. -/
theorem run_of_append (h : (reading parse?).run (ws ++ cut) = some (e, [] ++ cut)) :
    (reading parse?).run ws = some (e, []) ∧
      ((reading DateExpr.parse?).run (ws ++ cut) = none →
        (reading DateExpr.parse?).run ws = none) := by
  induction hlen : ws.length using Nat.strongRecOn generalizing ws e with
  | ind len ih =>
    subst hlen
    rw [reading_parse?] at h ⊢
    rcases or_of_run_ifReads_append (p := Word.isKnown) (fun _ _ _ => .pure _) h with
      ⟨_, us, hnow, h⟩ | ⟨hnow, h⟩
    · obtain ⟨rfl, rfl⟩ := run_pure_append h
      have hnow := run_exactly_of_append hnow
      obtain ⟨w, rfl, hw⟩ := exists_of_run_word hnow
      exact ⟨run_ifReads_of_run hnow,
        fun _ => DateExpr.run_cons_eq_none (by cases w <;> first | rfl | cases hw) []⟩
    rw [run_ifReads_of_none (run_exactly_eq_none_of_append hnow)]
    rcases or_of_run_ifReads_append (fun _ _ _ => .bind Duration.looksFor fun _ _ _ => .pure _) h with
      ⟨_, us, hin, h⟩ | ⟨hin, h⟩
    · have hin := run_exactly_of_append hin
      obtain ⟨d, vs, hduration, h⟩ :=
        exists_of_run_bind_append (p := Word.isKnown) (fun _ _ _ => .pure _) h
      obtain ⟨rfl, rfl⟩ := run_pure_append h
      obtain ⟨hduration, -⟩ := Duration.run_of_append (by simp) hduration
      rw [run_ifReads_of_run hin, run_bind_of_run hduration]
      obtain ⟨w, rfl, hw⟩ := exists_of_run_word hin
      exact ⟨rfl, fun _ => DateExpr.run_cons_eq_none (by cases w <;> first | rfl | cases hw) us⟩
    rw [run_ifReads_of_none (run_exactly_eq_none_of_append hin)]
    rcases or_of_run_ifReads_append (fun _ _ _ => looksFor_dateThen _) h with
      ⟨date, us, hdate, h⟩ | ⟨hdate, h⟩
    · obtain ⟨h, hends⟩ := run_dateThen_of_append h
      rw [run_ifReads_of_run (DateExpr.run_of_append hends hdate).1, h]
      refine ⟨rfl, fun hnone => ?_⟩
      rw [hdate] at hnone
      cases hnone
    rcases or_of_run_ifReads_append (fun _ _ _ => looksFor_shiftThen _ fun _ _ => looksFor) h with
      ⟨d, us, hduration, h⟩ | ⟨hduration, h⟩
    · have hlt := length_lt_of_run_reading hduration
      rw [List.length_append, List.length_append] at hlt
      obtain ⟨h, hand, hby⟩ := run_shiftThen_of_append
        (fun vs m hvs hrun => ih vs.length (by omega) hrun rfl) h
      obtain ⟨hduration', -⟩ := Duration.run_of_append hand hduration
      have hdate' : (reading DateExpr.parse?).run ws = none := by
        have hby' := (DateExpr.run_eq_none hdate).2
        rw [DateExpr.byDuration, run_bind_of_run hduration] at hby'
        refine DateExpr.run_eq_none_of_begins (Duration.begins_of_run hduration') ?_
        rw [DateExpr.byDuration, run_bind_of_run hduration', hby hby']
      rw [run_ifReads_of_none hdate', run_ifReads_of_run hduration', h]
      exact ⟨rfl, fun _ => hdate'⟩
    · obtain ⟨time, us, htime, h⟩ := exists_of_run_bind_append (fun _ _ _ => looksFor_timeThen _) h
      obtain ⟨hdate', hduration'⟩ := run_eq_none_of_timeThen htime h hdate
      obtain ⟨h, hends⟩ := run_timeThen_of_append h
      rw [run_ifReads_of_none hdate', run_ifReads_of_none hduration',
        run_bind_of_run (TimeExpr.run_of_append hends htime).1, h]
      exact ⟨rfl, fun _ => hdate'⟩

end MomentExpr

end CasualDate
