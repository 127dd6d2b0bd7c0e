import CasualDate.Proofs.Grammar.Number

/-!
# Dates are sentences

Durations and dates are read from sentences of the grammar that is read, as far as no mark dangles
(`Duration.derives`, `DateExpr.derives`). A duration is a sentence for the units that it counts, so
that a date by a duration is one of whole days.
-/

namespace CasualDate

open Grammar Reading

variable {ws : List Word}

namespace Duration

theorem derives_unit : Derives (word unit?) (fun u us _ => us = [.unit u]) ws := by
  refine .word fun w u _ hw => ?_
  cases w <;> cases hw
  rfl

theorem derives_part? :
    Derives (reading part?) (fun d us _ => Grammar.Duration us (d.parts.map Prod.snd)) ws := by
  rw [reading_part?]
  refine .orElse (.bind Number.derives fun n _ _ us => .bind derives_unit fun u _ _ vs => .pure ?_)
    (.bind (S := fun _ us _ => us = [.indefinite] ∨ us = [.the]) (.word fun w _ _ hw => ?_)
      fun _ _ _ us => .bind derives_unit fun u _ _ vs => .pure ?_)
  · rintro rfl hn
    exact .num hn u
  · cases w <;> cases hw
    · exact .inl rfl
    · exact .inr rfl
  · rintro rfl (rfl | rfl)
    · exact .indefinite u
    · exact .the u

theorem derives :
    Derives (reading parse?) (fun d us _ => Grammar.Duration us (d.parts.map Prod.snd)) ws := by
  induction hn : ws.length using Nat.strongRecOn generalizing ws with
  | ind n ih =>
    subst hn
    rw [reading_parse?]
    refine .bind derives_part? fun d rest hd us => .orElse
      (.bind .exactly fun _ below hand vs =>
        .bind (ih below.length ?_ rfl) fun e _ _ zs => .pure ?_) (.pure ?_)
    · exact Nat.lt_trans (length_lt_of_run_word hand) (length_lt_of_run_reading hd)
    · rintro hzs rfl hus
      rw [List.append_nil, parts, List.map_append]
      exact .both hus hzs
    · intro hus
      rwa [List.append_nil]

theorem isSubDaily_eq_false_iff {d : Duration} :
    d.isSubDaily = false ↔ ∀ u ∈ d.parts.map Prod.snd, u.isSubDaily = false := by
  rw [isSubDaily, List.any_eq_false, List.forall_mem_map]
  simp

end Duration

namespace DateExpr

theorem derives_year? : Derives (reading year?) (fun _ us _ => Year accepted us) ws := by
  rw [reading_year?]
  refine .ifReads .exactly
    (fun _ _ _ us => .bind Number.derives fun y _ _ vs => .option fun z hz => ?_)
    (.bind Number.derives fun y _ _ us =>
      .bind .unlessNext fun _ _ _ vs => .pure ?_)
  · obtain ⟨hge, -⟩ := Option.ite_none_right_eq_some.1 hz
    rintro hvs rfl
    rw [List.append_nil]
    exact .behindComma hvs hge
  · rintro rfl hus
    rw [List.append_nil, List.append_nil]
    exact .num hus

theorem derives_dayThen (m : Month) (d : Nat) :
    Derives (dayThen m d) (fun _ us _ => Opt (Year accepted) us) ws := by
  refine .ifReads derives_year? (fun _ _ _ us => .pure fun hus => ?_) (.pure (.inl rfl))
  rw [List.append_nil]
  exact .inr hus

theorem derives_month : Derives (word month?) (fun m us _ => us = [.month m]) ws := by
  refine .word fun w m _ hw => ?_
  cases w <;> cases hw
  rfl

theorem derives_monthFirst? :
    Derives (reading monthFirst?) (fun _ us _ => Grammar.Date accepted us) ws := by
  rw [reading_monthFirst?]
  refine .bind derives_month fun m _ _ us => .ifReads Number.derives (fun n _ _ vs => ?_) (.pure ?_)
  · split
    · next hgt =>
      refine .pure ?_
      rintro hvs rfl
      rw [List.append_nil]
      exact .monthYear m hvs hgt
    · refine .bind .skip fun _ _ _ ss => (derives_dayThen m n).mono fun _ ys _ hys => ?_
      rintro hss hvs rfl
      simpa using Grammar.Date.monthDay m hvs hss hys
  · rintro rfl
    exact .month m

theorem derives_dayFirst? :
    Derives (reading dayFirst?) (fun _ us _ => Grammar.Date accepted us) ws := by
  rw [reading_dayFirst?]
  refine .bind .skip fun _ _ _ ts => .bind Number.derives fun n _ _ us =>
    .bind .skip fun _ _ _ ss => .bind .skip fun _ _ _ os =>
      .bind derives_month fun m _ _ ms => ?_
  split
  · refine (derives_dayThen m n).mono fun _ ys _ hys => ?_
    rintro rfl hos hss hus hts
    simpa using Grammar.Date.dayMonth m hts hus hss hos hys
  · exact .failure

theorem isDelimiter_iff {w : Word} : isDelimiter w = true ↔ w ∈ marks := by
  cases w <;> simp [isDelimiter, marks]

theorem derives_numeric? :
    Derives (reading numeric?) (fun _ us _ => Grammar.Date accepted us) ws := by
  rw [reading_numeric?]
  refine .bind Number.derives fun first _ _ us =>
    .bind (S := fun w vs _ => vs = [w] ∧ w ∈ marks) (.word fun v w _ hw => ?_) fun w _ _ vs =>
      .bind Number.derives fun second _ _ zs =>
        .ifReads .exactly
          (fun _ _ _ xs => .bind Number.derives fun third _ _ ys => .pure ?_) (.pure ?_)
  · obtain ⟨hv, hw⟩ := Option.ite_none_right_eq_some.1 hw
    obtain rfl := Option.some.inj hw
    exact ⟨rfl, isDelimiter_iff.1 hv⟩
  · rintro hys rfl hzs ⟨rfl, hw⟩ hus
    simpa using Grammar.Date.threeNums hw hus hzs hys
  · rintro hzs ⟨rfl, hw⟩ hus
    simpa using Grammar.Date.twoNums hw hus hzs

theorem derives_relative? :
    Derives (reading relative?) (fun _ us _ => Grammar.Date accepted us) ws := by
  rw [reading_relative?]
  refine .bind (S := fun r us _ => us = [.relative r]) (.word fun w r _ hw => ?_)
    fun r _ _ us => .word fun w e _ hw => ?_
  · cases w <;> cases hw
    rfl
  · rintro rfl
    cases w with
    | weekday a => exact .relativeWeekday r a
    | unit u => exact .relativeUnit r u
    | _ => cases hw

theorem derives_afterOrFrom :
    Derives (word afterOrFrom?) (fun _ us _ => us = [.afterWord] ∨ us = [.fromWord]) ws := by
  refine .word fun w _ _ hw => ?_
  cases w <;> cases hw
  · exact .inr rfl
  · exact .inl rfl

theorem derives_byDuration
    (ih : ∀ us : List Word, us.length < ws.length →
      Derives (reading parse?) (fun _ vs _ => Grammar.Date accepted vs) us) :
    Derives byDuration (fun _ us _ => Grammar.Date accepted us) ws := by
  refine .bind Duration.derives fun d rest hd us => ?_
  unfold durationThen
  split
  · exact .failure
  · next hsub =>
    refine .orElse (.bind .exactly fun _ _ _ vs => .pure ?_)
      (.bind derives_afterOrFrom fun _ below hfrom vs =>
        .bind (ih below ?_) fun _ _ _ zs => .pure ?_)
    · rintro rfl hus
      exact .ago hus (Duration.isSubDaily_eq_false_iff.1 (Bool.eq_false_iff.2 hsub))
    · exact Nat.lt_trans (length_lt_of_run_word hfrom) (length_lt_of_run_reading hd)
    · rintro hzs (rfl | rfl) hus
      · simpa using Grammar.Date.after hus hzs
      · simpa using Grammar.Date.fromDate hus hzs

theorem derives : Derives (reading parse?) (fun _ us _ => Grammar.Date accepted us) ws := by
  induction hn : ws.length using Nat.strongRecOn generalizing ws with
  | ind n ih =>
    subst hn
    rw [reading_parse?]
    refine .orElse (.word fun w e _ hw => ?_) (.orElse derives_monthFirst? (.orElse derives_dayFirst?
      (.orElse derives_numeric? (.orElse (derives_byDuration fun us hus => ih us.length hus rfl)
        (.orElse derives_relative? (.word fun w e _ hw => ?_))))))
    · cases w with
      | today => exact .today
      | tomorrow => exact .tomorrow
      | yesterday => exact .yesterday
      | _ => cases hw
    · cases w with
      | weekday a => exact .weekday a
      | _ => cases hw

end DateExpr

end CasualDate
