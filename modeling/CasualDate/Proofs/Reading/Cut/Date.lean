import CasualDate.Proofs.Reading.Cut.Number

/-!
# Dates with the words behind them cut off

What is read in front of further words is read without them as well, for durations
(`Duration.run_of_append`) and dates (`DateExpr.run_of_append`). Behind the day of a date a year is
looked for, so that `DateExpr.Ends` asks more of the words behind a date than `Number.Ends`. The
ways to write a date are tried in order; that the earlier ones still fail without the words cut off
is a fact about the words that are left: whichever way succeeds, they begin with words that
the earlier ways do not go on from.
-/

namespace CasualDate

open Reading

variable {ws mid cut us : List Word} {w : Word} {n : Nat}

namespace Reading

theorem run_unlessNext_append {p : Word → Bool} {u : Unit}
    (h : (unlessNext p).run (ws ++ cut) = some (u, mid ++ cut)) :
    ws = mid ∧ (unlessNext p).run ws = some (u, mid) := by
  rw [run_unlessNext] at h ⊢
  split at h
  · cases h
  · next hnext =>
    obtain rfl := List.append_cancel_right (Prod.mk.inj (Option.some.inj h)).2
    refine ⟨rfl, if_neg ?_⟩
    cases ws with
    | nil => simp
    | cons w ws => simpa using hnext

end Reading

theorem Number.Ends.of_skip (hw : w.beginsNumber = false) (hmid : Ends cut mid)
    (h : skipWord w ws = mid) : Ends cut ws := by
  cases ws with
  | nil => exact .nil
  | cons v ws =>
    rw [skipWord] at h
    split at h
    · next hv => exact .cons (hv ▸ hw)
    · exact h ▸ hmid

theorem Number.exists_of_run {r : Nat × List Word} (h : (reading parse?).run ws = some r) :
    ∃ w us, ws = w :: us ∧ w.beginsNumber = true := by
  cases ws with
  | nil =>
    rw [run_reading_eq_none.2 parse?_nil] at h
    cases h
  | cons w us =>
    refine ⟨w, us, rfl, ?_⟩
    cases hw : w.beginsNumber with
    | true => rfl
    | false =>
      rw [run_reading_eq_none.2 (parse?_eq_none hw)] at h
      cases h

namespace Duration

variable {d : Duration}

theorem exists_of_run_unit {u : TimeUnit} (h : (word unit?).run ws = some (u, mid)) :
    ws = .unit u :: mid := by
  obtain ⟨w, rfl, hw⟩ := exists_of_run_word h
  cases w <;> first | (cases hw; rfl) | cases hw

/-- An amount begins with a number and a unit, or with an article and a unit. -/
inductive Begins : List Word → Prop
  | number {n : Nat} {u : TimeUnit} {ws rest : List Word}
    (h : (reading Number.parse?).run ws = some (n, .unit u :: rest)) : Begins ws
  | article {w : Word} {u : TimeUnit} {rest : List Word} (h : article? w = some ()) :
    Begins (w :: .unit u :: rest)

theorem begins_of_run_part? (h : (reading part?).run ws = some (d, mid)) : Begins ws := by
  rw [reading_part?, run_orElse, Option.or_eq_some_iff] at h
  rcases h with h | ⟨-, h⟩
  · rw [StateT.run_bind] at h
    obtain ⟨⟨n, us⟩, hnumber, h⟩ := Option.bind_eq_some_iff.1 h
    rw [StateT.run_bind] at h
    obtain ⟨⟨u, vs⟩, hunit, h⟩ := Option.bind_eq_some_iff.1 h
    obtain rfl := exists_of_run_unit hunit
    exact .number hnumber
  · rw [StateT.run_bind] at h
    obtain ⟨⟨_, us⟩, harticle, h⟩ := Option.bind_eq_some_iff.1 h
    rw [StateT.run_bind] at h
    obtain ⟨⟨u, vs⟩, hunit, h⟩ := Option.bind_eq_some_iff.1 h
    obtain rfl := exists_of_run_unit hunit
    obtain ⟨w, rfl, hw⟩ := exists_of_run_word harticle
    exact .article hw

theorem begins_of_run (h : (reading parse?).run ws = some (d, mid)) : Begins ws := by
  rw [reading_parse?, StateT.run_bind] at h
  obtain ⟨⟨first, us⟩, hpart, -⟩ := Option.bind_eq_some_iff.1 h
  exact begins_of_run_part? hpart

theorem run_part?_of_append (h : (reading part?).run (ws ++ cut) = some (d, mid ++ cut)) :
    (reading part?).run ws = some (d, mid) ∧ Number.Ends cut ws := by
  rw [reading_part?, run_orElse, Option.or_eq_some_iff] at h ⊢
  rcases h with h | ⟨-, h⟩
  · obtain ⟨n, us, hnumber, h⟩ := exists_of_run_bind_append (fun _ _ _ => .bind (.known rfl)
      fun _ _ _ => .pure _) h
    obtain ⟨u, vs, hunit, h⟩ := exists_of_run_bind_append (p := Word.isKnown) (fun _ _ _ => .pure _) h
    have hunit := run_word_of_append hunit
    obtain rfl := exists_of_run_unit hunit
    refine ⟨.inl ?_, .of_run (.cons rfl) hnumber⟩
    rw [run_bind_of_run (Number.run_of_append (.cons rfl) hnumber), run_bind_of_run hunit]
    exact run_pure_of_append h
  · obtain ⟨_, us, harticle, h⟩ := exists_of_run_bind_append (fun _ _ _ => .bind (.known rfl)
      fun _ _ _ => .pure _) h
    obtain ⟨u, vs, hunit, hpure⟩ :=
      exists_of_run_bind_append (p := Word.isKnown) (fun _ _ _ => .pure _) h
    have harticle := run_word_of_append harticle
    have hbegins : ∃ w, ws = w :: us ∧ w.beginsNumber = false := by
      obtain ⟨w, rfl, hw⟩ := exists_of_run_word harticle
      exact ⟨w, rfl, by cases w <;> first | rfl | cases hw⟩
    obtain ⟨w, rfl, hw⟩ := hbegins
    refine ⟨.inr ⟨run_of_none (run_reading_eq_none.2 (Number.parse?_eq_none hw)) _, ?_⟩, .cons hw⟩
    rw [run_bind_of_run harticle, run_bind_of_run (run_word_of_append hunit)]
    exact run_pure_of_append hpure

theorem run_of_append (hmid : ∀ w ∈ mid.head?, w ≠ .andWord)
    (h : (reading parse?).run (ws ++ cut) = some (d, mid ++ cut)) :
    (reading parse?).run ws = some (d, mid) ∧ Number.Ends cut ws := by
  induction hlen : ws.length using Nat.strongRecOn generalizing ws d with
  | ind len ih =>
    subst hlen
    rw [reading_parse?] at h ⊢
    obtain ⟨first, us, hpart, h⟩ := exists_of_run_bind_append (fun _ _ _ => .orElse
      (.bind (.exactly rfl) fun _ _ _ => .bind looksFor fun _ _ _ => .pure _) (.pure _)) h
    obtain ⟨hpart, hends⟩ := run_part?_of_append hpart
    refine ⟨?_, hends⟩
    have hlt := length_lt_of_run_reading hpart
    rw [run_bind_of_run hpart]
    rw [run_orElse, Option.or_eq_some_iff] at h ⊢
    rcases h with h | ⟨-, h⟩
    · obtain ⟨_, vs, hand, h⟩ := exists_of_run_bind_append
        (fun _ _ _ => .bind looksFor fun _ _ _ => .pure _) h
      obtain ⟨second, xs, hrest, h⟩ :=
        exists_of_run_bind_append (p := Word.isKnown) (fun _ _ _ => .pure _) h
      obtain ⟨rfl, rfl⟩ := run_pure_append h
      have hand := run_exactly_of_append hand
      have := length_lt_of_run_word hand
      refine .inl ?_
      rw [run_bind_of_run hand, run_bind_of_run (ih vs.length (by omega) hrest rfl).1]
      rfl
    · obtain ⟨rfl, rfl⟩ := run_pure_append h
      refine .inr ⟨run_of_none ?_ _, rfl⟩
      refine run_exactly_eq_none fun rest hrest => ?_
      exact hmid .andWord (by simp [hrest]) rfl

end Duration

namespace DateExpr

variable {e : DateExpr} {m : Month} {y : Nat}

/-- Attempts to go on with a number or with a year at `mid` that fail in front of `cut` fail without
it too. -/
structure Ends (cut mid : List Word) : Prop where
  number : Number.Ends cut mid
  year : (reading year?).run (mid ++ cut) = none → (reading year?).run mid = none

theorem run_year?_of_append (hmid : Number.Ends cut mid)
    (h : (reading year?).run (ws ++ cut) = some (y, mid ++ cut)) :
    (reading year?).run ws = some (y, mid) ∧ Number.Ends cut ws := by
  rw [reading_year?] at h ⊢
  rcases or_of_run_ifReads_append (fun _ _ _ => .bind Number.looksFor_known fun _ _ _ => .option _) h
    with ⟨_, us, hcomma, h⟩ | ⟨hcomma, h⟩
  · obtain ⟨k, vs, hnumber, h⟩ :=
      exists_of_run_bind_append (p := Word.isKnown) (fun _ _ _ => .option _) h
    obtain ⟨rfl, hyear⟩ := run_option_append h
    constructor
    · rw [run_ifReads_of_run (run_exactly_of_append hcomma),
        run_bind_of_run (Number.run_of_append hmid hnumber), run_option, hyear]
      rfl
    · obtain ⟨w, rfl, hw⟩ := exists_of_run_word_append hcomma
      exact .cons (by cases w <;> first | rfl | cases hw)
  · obtain ⟨k, vs, hnumber, h⟩ := exists_of_run_bind_append
      (fun _ _ _ => .bind looksFor_unlessNext fun _ _ _ => .pure _) h
    obtain ⟨_, xs, hnext, h⟩ := exists_of_run_bind_append (p := Word.isKnown) (fun _ _ _ => .pure _) h
    obtain ⟨rfl, rfl⟩ := run_pure_append h
    obtain ⟨rfl, hnext⟩ := run_unlessNext_append hnext
    refine ⟨?_, .of_run hmid hnumber⟩
    rw [run_ifReads_of_none (run_exactly_eq_none_of_append hcomma),
      run_bind_of_run (Number.run_of_append hmid hnumber), run_bind_of_run hnext]
    rfl

theorem run_dayThen_of_append (hmid : Ends cut mid)
    (h : (dayThen m n).run (ws ++ cut) = some (e, mid ++ cut)) :
    (dayThen m n).run ws = some (e, mid) ∧ Number.Ends cut ws := by
  rcases or_of_run_ifReads_append (p := Word.isKnown) (fun _ _ _ => .pure _) h with
    ⟨y, us, hyear, h⟩ | ⟨hyear, h⟩
  · obtain ⟨rfl, rfl⟩ := run_pure_append h
    obtain ⟨hyear, hends⟩ := run_year?_of_append hmid.number hyear
    rw [dayThen, run_ifReads_of_run hyear]
    exact ⟨rfl, hends⟩
  · obtain ⟨rfl, rfl⟩ := run_pure_append h
    rw [dayThen, run_ifReads_of_none (hmid.year hyear)]
    exact ⟨rfl, hmid.number⟩

theorem run_monthFirst?_of_append (hmid : Ends cut mid)
    (h : (reading monthFirst?).run (ws ++ cut) = some (e, mid ++ cut)) :
    (reading monthFirst?).run ws = some (e, mid) := by
  rw [reading_monthFirst?] at h ⊢
  have hthen (m : Month) (n : Nat) (rest : List Word) :
      LooksFor Word.isKnown (if 31 < n then pure (monthYear m n) else do
        skip .ordinalSuffix
        dayThen m n) rest := by
    split
    · exact .pure _
    · exact .bind (.skip rfl) fun _ _ _ => looksFor_dayThen m n
  obtain ⟨m, us, hmonth, h⟩ := exists_of_run_bind_append (fun _ _ _ => .ifReads Number.looksFor_known
    (fun _ _ _ => hthen _ _ _) (.pure _)) h
  rw [run_bind_of_run (run_word_of_append hmonth)]
  rcases or_of_run_ifReads_append (fun _ _ _ => hthen _ _ _) h with ⟨n, vs, hnumber, h⟩ | ⟨hnumber, h⟩
  · split at h
    · next hn =>
      obtain ⟨rfl, rfl⟩ := run_pure_append h
      rw [run_ifReads_of_run (Number.run_of_append hmid.number hnumber), if_pos hn]
      rfl
    · next hn =>
      obtain ⟨_, xs, hskip, h⟩ := exists_of_run_bind_append (fun _ _ _ => looksFor_dayThen m n) h
      have hskip := run_skip_of_append hskip
      obtain ⟨h, hends⟩ := run_dayThen_of_append hmid h
      have hends : Number.Ends cut vs :=
        .of_skip rfl hends (Prod.mk.inj (Option.some.inj hskip)).2
      rw [run_ifReads_of_run (Number.run_of_append hends hnumber), if_neg hn,
        run_bind_of_run hskip, h]
  · obtain ⟨rfl, rfl⟩ := run_pure_append h
    rw [run_ifReads_of_none (hmid.number.number hnumber)]
    rfl

theorem run_dayFirst?_of_append (hmid : Ends cut mid)
    (h : (reading dayFirst?).run (ws ++ cut) = some (e, mid ++ cut)) :
    (reading dayFirst?).run ws = some (e, mid) ∧ Number.Ends cut ws := by
  rw [reading_dayFirst?] at h ⊢
  have hlast (m : Month) (n : Nat) (rest : List Word) :
      LooksFor Word.isKnown (if n ≤ 31 then dayThen m n else failure) rest := by
    split
    · exact looksFor_dayThen m n
    · exact .failure
  obtain ⟨_, vs, hthe, h⟩ := exists_of_run_bind_append (fun _ _ _ => .bind Number.looksFor_known
    fun _ _ _ => .bind (.skip rfl) fun _ _ _ => .bind (.skip rfl) fun _ _ _ =>
      .bind (.known rfl) fun _ _ _ => hlast _ _ _) h
  obtain ⟨n, xs, hnumber, h⟩ := exists_of_run_bind_append (fun _ _ _ => .bind (.skip rfl)
    fun _ _ _ => .bind (.skip rfl) fun _ _ _ => .bind (.known rfl) fun _ _ _ => hlast _ _ _) h
  obtain ⟨_, ys, hsuffix, h⟩ := exists_of_run_bind_append (fun _ _ _ => .bind (.skip rfl)
    fun _ _ _ => .bind (.known rfl) fun _ _ _ => hlast _ _ _) h
  obtain ⟨_, zs, hof, h⟩ := exists_of_run_bind_append
    (fun _ _ _ => .bind (.known rfl) fun _ _ _ => hlast _ _ _) h
  obtain ⟨m, us, hmonth, h⟩ := exists_of_run_bind_append (fun _ _ _ => hlast _ _ _) h
  have hsuffix := run_skip_of_append hsuffix
  have hof := run_skip_of_append hof
  have hmonth := run_word_of_append hmonth
  have hends : Number.Ends cut xs := by
    obtain ⟨w, rfl, hw⟩ := exists_of_run_word hmonth
    have hmonth : Number.Ends cut (w :: us) := .cons (by cases w <;> first | rfl | cases hw)
    exact .of_skip rfl (.of_skip rfl hmonth (Prod.mk.inj (Option.some.inj hof)).2)
      (Prod.mk.inj (Option.some.inj hsuffix)).2
  have hthe := run_skip_of_append hthe
  refine ⟨?_, .of_skip rfl (.of_run hends hnumber) (Prod.mk.inj (Option.some.inj hthe)).2⟩
  rw [run_bind_of_run hthe, run_bind_of_run (Number.run_of_append hends hnumber),
    run_bind_of_run hsuffix, run_bind_of_run hof, run_bind_of_run hmonth]
  split at h
  · next hn =>
    rw [if_pos hn]
    exact (run_dayThen_of_append hmid h).1
  · cases h

theorem run_numeric?_of_append (hmid : Number.Ends cut mid)
    (h : (reading numeric?).run (ws ++ cut) = some (e, mid ++ cut)) :
    (reading numeric?).run ws = some (e, mid) ∧ Number.Ends cut ws := by
  rw [reading_numeric?] at h ⊢
  have hdelimiter {ws rest : List Word} {d : Word} (hrun : (word delimiter?).run ws = some (d, rest)) :
      d.isKnown = true ∧ d.beginsNumber = false ∧ ws = d :: rest := by
    obtain ⟨w, rfl, hw⟩ := exists_of_run_word hrun
    cases w <;> first | (cases hw; exact ⟨rfl, rfl, rfl⟩) | cases hw
  have hthird (m d : Nat) (rest : List Word) : LooksFor Word.isKnown
      (do return numericFull m d (← reading Number.parse?)) rest :=
    .bind Number.looksFor_known fun _ _ _ => .pure _
  obtain ⟨first, us, hfirst, h⟩ := exists_of_run_bind_append (fun _ _ _ => .bind (.known rfl)
    fun _ _ hrun => .bind Number.looksFor_known fun _ _ _ =>
      .ifReads (.exactly (hdelimiter hrun).1) (fun _ _ _ => hthird _ _ _) (.pure _)) h
  obtain ⟨delimiter, vs, hmark, hrest⟩ := exists_of_run_bind_append (fun _ _ hrun =>
    .bind Number.looksFor_known fun _ _ _ =>
      .ifReads (.exactly (hdelimiter hrun).1) (fun _ _ _ => hthird _ _ _) (.pure _)) h
  have hmark := run_word_of_append hmark
  obtain ⟨hknown, hbegins, rfl⟩ := hdelimiter hmark
  obtain ⟨second, xs, hsecond, h⟩ := exists_of_run_bind_append (fun _ _ _ =>
    .ifReads (.exactly hknown) (fun _ _ _ => hthird _ _ _) (.pure _)) hrest
  refine ⟨?_, .of_run (.cons hbegins) hfirst⟩
  rw [run_bind_of_run (Number.run_of_append (.cons hbegins) hfirst), run_bind_of_run hmark]
  rcases or_of_run_ifReads_append (fun _ _ _ => hthird _ _ _) h with ⟨_, ys, hnext, h⟩ | ⟨hnext, h⟩
  · obtain ⟨third, zs, hnumber, h⟩ :=
      exists_of_run_bind_append (p := Word.isKnown) (fun _ _ _ => .pure _) h
    obtain ⟨rfl, rfl⟩ := run_pure_append h
    have hnext := run_exactly_of_append hnext
    have hends : Number.Ends cut xs := by
      obtain ⟨w, rfl, hw⟩ := exists_of_run_word hnext
      obtain ⟨rfl, -⟩ := Option.ite_none_right_eq_some.1 hw
      exact .cons hbegins
    rw [run_bind_of_run (Number.run_of_append hends hsecond), run_ifReads_of_run hnext,
      run_bind_of_run (Number.run_of_append hmid hnumber)]
    rfl
  · obtain ⟨rfl, rfl⟩ := run_pure_append h
    rw [run_bind_of_run (Number.run_of_append hmid hsecond),
      run_ifReads_of_none (run_exactly_eq_none_of_append hnext)]
    rfl

theorem run_relative?_of_append (h : (reading relative?).run (ws ++ cut) = some (e, mid ++ cut)) :
    (reading relative?).run ws = some (e, mid) := by
  rw [reading_relative?] at h ⊢
  obtain ⟨r, us, hrelative, h⟩ :=
    exists_of_run_bind_append (p := Word.isKnown) (fun _ _ _ => .known rfl) h
  rw [run_bind_of_run (run_word_of_append hrelative)]
  exact run_word_of_append h

theorem run_durationThen_of_append {d : Duration}
    (ih : ∀ us f, us.length < ws.length → (reading parse?).run (us ++ cut) = some (f, mid ++ cut) →
      (reading parse?).run us = some (f, mid))
    (h : (durationThen d).run (ws ++ cut) = some (e, mid ++ cut)) :
    (durationThen d).run ws = some (e, mid) ∧ ∀ w ∈ ws.head?, w ≠ .andWord := by
  unfold durationThen at h ⊢
  split at h
  · cases h
  · next hsub =>
    rw [if_neg hsub]
    rw [run_orElse, Option.or_eq_some_iff] at h ⊢
    rcases h with h | ⟨hago, h⟩
    · obtain ⟨_, us, hago, h⟩ :=
        exists_of_run_bind_append (p := Word.isKnown) (fun _ _ _ => .pure _) h
      have hago := run_exactly_of_append hago
      refine ⟨.inl ?_, ?_⟩
      · rw [run_bind_of_run hago]
        exact run_pure_of_append h
      · obtain ⟨w, rfl, hw⟩ := exists_of_run_word hago
        rintro v ⟨⟩ rfl
        cases hw
    · obtain ⟨_, us, hfrom, h⟩ := exists_of_run_bind_append
        (fun _ _ _ => .bind looksFor fun _ _ _ => .pure _) h
      obtain ⟨f, vs, hdate, h⟩ :=
        exists_of_run_bind_append (p := Word.isKnown) (fun _ _ _ => .pure _) h
      obtain ⟨rfl, rfl⟩ := run_pure_append h
      have hfrom := run_word_of_append hfrom
      obtain ⟨w, rfl, hw⟩ := exists_of_run_word hfrom
      refine ⟨.inr ⟨run_of_none ?_ _, ?_⟩, ?_⟩
      · cases w <;> first | rfl | cases hw
      · rw [run_bind_of_run hfrom, run_bind_of_run (ih us f (by simp) hdate)]
        rfl
      · rintro v ⟨⟩ rfl
        cases hw

theorem run_byDuration_of_append
    (ih : ∀ us f, us.length < ws.length → (reading parse?).run (us ++ cut) = some (f, mid ++ cut) →
      (reading parse?).run us = some (f, mid))
    (h : byDuration.run (ws ++ cut) = some (e, mid ++ cut)) :
    byDuration.run ws = some (e, mid) ∧ Number.Ends cut ws := by
  obtain ⟨d, us, hduration, h⟩ := exists_of_run_bind_append
    (fun _ _ _ => looksFor_durationThen _ fun _ _ => looksFor) h
  have hlt := length_lt_of_run_reading hduration
  rw [List.length_append, List.length_append] at hlt
  obtain ⟨h, hhead⟩ := run_durationThen_of_append
    (fun vs f hvs hrun => ih vs f (by omega) hrun) h
  obtain ⟨hduration, hends⟩ := Duration.run_of_append hhead hduration
  exact ⟨by rw [byDuration, run_bind_of_run hduration, h], hends⟩

/-! ### Which way a date is written -/

variable {rest : List Word}

/-- The words that may stand between the number of a day and its month, and the month. -/
def followsDay : Word → Bool
  | .ordinalSuffix | .ofWord | .month _ => true
  | _ => false

theorem run_dayFirst?_of_number (hnumber : (reading Number.parse?).run ws = some (n, rest))
    (hrest : ∀ w ∈ rest.head?, followsDay w = false) : (reading dayFirst?).run ws = none := by
  obtain ⟨w, us, rfl, hw⟩ := Number.exists_of_run hnumber
  have hthe : skipWord .the (w :: us) = w :: us := if_neg (by rintro rfl; cases hw)
  have hmonth : (word month?).run (skipWord .ofWord (skipWord .ordinalSuffix rest)) = none := by
    cases rest with
    | nil => rfl
    | cons v rest =>
      have hv := hrest v rfl
      cases v <;> first | rfl | cases hv
  simp [reading_dayFirst?, hthe, hnumber, hmonth]

/-- A number in front of a month is its day, unless the month has no such day; a year may follow. -/
theorem run_dayFirst?_of_month {m : Month}
    (hnumber : (reading Number.parse?).run ws = some (n, .month m :: rest)) :
    (reading dayFirst?).run ws = if n ≤ 31 then (dayThen m n).run rest else none := by
  obtain ⟨w, us, rfl, hw⟩ := Number.exists_of_run hnumber
  have hthe : skipWord .the (w :: us) = w :: us := if_neg (by rintro rfl; cases hw)
  have hof : skipWord .ofWord (skipWord .ordinalSuffix (.month m :: rest)) = .month m :: rest := rfl
  by_cases hn : n ≤ 31 <;> simp [reading_dayFirst?, hthe, hnumber, hof, month?, hn]

theorem run_numeric?_of_number (hnumber : (reading Number.parse?).run ws = some (n, rest))
    (hrest : ∀ w ∈ rest.head?, isDelimiter w = false) : (reading numeric?).run ws = none := by
  have hmark : (word delimiter?).run rest = none := by
    cases rest with
    | nil => rfl
    | cons v rest => simp [delimiter?, hrest v rfl]
  simp [reading_numeric?, hnumber, hmark]

theorem run_part?_of_number (hnumber : (reading Number.parse?).run ws = some (n, rest))
    (hrest : ∀ w ∈ rest.head?, Duration.unit? w = none) : (reading Duration.part?).run ws = none := by
  obtain ⟨w, us, rfl, hw⟩ := Number.exists_of_run hnumber
  have hunit : (word Duration.unit?).run rest = none := by
    cases rest with
    | nil => rfl
    | cons v rest => simp [hrest v rfl]
  have harticle : Duration.article? w = none := by cases w <;> first | rfl | cases hw
  simp [Duration.reading_part?, hnumber, hunit, harticle]

theorem run_dayFirst?_of_begins (h : Duration.Begins ws) : (reading dayFirst?).run ws = none := by
  cases h with
  | number hnumber => exact run_dayFirst?_of_number hnumber (by simp [followsDay])
  | @article w u rest hw =>
    have hnumber : (reading Number.parse?).run (skipWord .the (w :: .unit u :: rest)) = none := by
      cases w <;> first | exact run_reading_eq_none.2 (Number.parse?_eq_none rfl) | cases hw
    simp [reading_dayFirst?, hnumber]

theorem run_numeric?_of_begins (h : Duration.Begins ws) : (reading numeric?).run ws = none := by
  cases h with
  | number hnumber => exact run_numeric?_of_number hnumber (by simp [isDelimiter])
  | @article w u rest hw =>
    have hnumber : (reading Number.parse?).run (w :: .unit u :: rest) = none := by
      cases w <;> first | exact run_reading_eq_none.2 (Number.parse?_eq_none rfl) | cases hw
    simp [reading_numeric?, hnumber]

/-- The words that a day, a date in numbers and a duration begin with. -/
def beginsCount (w : Word) : Bool :=
  w.beginsNumber || w == .the || w == .indefinite

theorem exists_cons_of_begins (h : Duration.Begins ws) :
    ∃ w us, ws = w :: us ∧ beginsCount w = true := by
  cases h with
  | number hnumber =>
    obtain ⟨w, us, rfl, hw⟩ := Number.exists_of_run hnumber
    exact ⟨w, us, rfl, by simp [beginsCount, hw]⟩
  | @article w u rest hw => exact ⟨w, _, rfl, by cases w <;> first | rfl | cases hw⟩

theorem run_eq_none_of_number_eq_none {w : Word} {us : List Word}
    (hnumber : (reading Number.parse?).run (w :: us) = none) (harticle : Duration.article? w = none) :
    (reading dayFirst?).run (w :: us) = none ∧ (reading numeric?).run (w :: us) = none ∧
      byDuration.run (w :: us) = none ∧ (reading Duration.parse?).run (w :: us) = none := by
  have hthe : skipWord .the (w :: us) = w :: us := if_neg (by rintro rfl; cases harticle)
  have hpart : (reading Duration.part?).run (w :: us) = none := by
    simp [Duration.reading_part?, hnumber, harticle]
  have hduration : (reading Duration.parse?).run (w :: us) = none := by
    rw [Duration.reading_parse?]
    exact run_of_none hpart _
  refine ⟨?_, ?_, run_of_none hduration _, hduration⟩
  · simp [reading_dayFirst?, hthe, hnumber]
  · simp [reading_numeric?, hnumber]

theorem run_eq_none_of_head (hw : beginsCount w = false) (us : List Word) :
    (reading dayFirst?).run (w :: us) = none ∧ (reading numeric?).run (w :: us) = none ∧
      byDuration.run (w :: us) = none ∧ (reading Duration.parse?).run (w :: us) = none := by
  refine run_eq_none_of_number_eq_none (run_reading_eq_none.2 (Number.parse?_eq_none ?_)) ?_
  · cases w <;> first | rfl | cases hw
  · cases w <;> first | rfl | cases hw

theorem run_eq_none_of_beginsCount (hw : beginsCount w = true) (us : List Word) :
    (word namedDayWord?).run (w :: us) = none ∧ (reading monthFirst?).run (w :: us) = none ∧
      (reading relative?).run (w :: us) = none ∧ (word weekdayWord?).run (w :: us) = none := by
  have hmonth : month? w = none := by cases w <;> first | rfl | cases hw
  have hrelative : relativeWord? w = none := by cases w <;> first | rfl | cases hw
  refine ⟨?_, ?_, ?_, ?_⟩
  · cases w <;> first | rfl | cases hw
  · simp [reading_monthFirst?, hmonth]
  · simp [reading_relative?, hrelative]
  · cases w <;> first | rfl | cases hw

/-- The words that a date begins with. -/
def beginsDate : Word → Bool
  | .today | .tomorrow | .yesterday | .month _ | .relative _ | .weekday _ => true
  | w => beginsCount w

theorem run_cons_eq_none (hw : beginsDate w = false) (us : List Word) :
    (reading parse?).run (w :: us) = none := by
  have hcount : beginsCount w = false := by cases w <;> first | exact hw | cases hw
  obtain ⟨hday, hnumeric, hby, -⟩ := run_eq_none_of_head hcount us
  have hmonth : month? w = none := by cases w <;> first | rfl | cases hw
  have hrelative : relativeWord? w = none := by cases w <;> first | rfl | cases hw
  have hnamed : namedDayWord? w = none := by cases w <;> first | rfl | cases hw
  have hweekday : weekdayWord? w = none := by cases w <;> first | rfl | cases hw
  simp [reading_parse?, reading_monthFirst?, reading_relative?, hnamed, hmonth, hday, hnumeric, hby,
    hrelative, hweekday]

theorem run_eq_none_of_number (hnumber : (reading Number.parse?).run ws = some (n, rest))
    (hday : (reading dayFirst?).run ws = none)
    (hrest : ∀ w ∈ rest.head?, isDelimiter w = false ∧ Duration.unit? w = none) :
    (reading parse?).run ws = none ∧ (reading Duration.parse?).run ws = none := by
  have hnumeric := run_numeric?_of_number hnumber fun w hw => (hrest w hw).1
  have hpart := run_part?_of_number hnumber fun w hw => (hrest w hw).2
  have hduration : (reading Duration.parse?).run ws = none := by
    rw [Duration.reading_parse?]
    exact run_of_none hpart _
  have hby : byDuration.run ws = none := run_of_none hduration _
  obtain ⟨w, us, rfl, hw⟩ := Number.exists_of_run hnumber
  obtain ⟨hnamed, hmonth, hrelative, hweekday⟩ :=
    run_eq_none_of_beginsCount (w := w) (by simp [beginsCount, hw]) us
  exact ⟨by simp only [reading_parse?, run_orElse, hnamed, hmonth, hday, hnumeric, hby, hrelative,
    hweekday, Option.or_none], hduration⟩

theorem run_eq_none_of_begins (h : Duration.Begins ws) (hby : byDuration.run ws = none) :
    (reading parse?).run ws = none := by
  have hday := run_dayFirst?_of_begins h
  have hnumeric := run_numeric?_of_begins h
  obtain ⟨w, us, rfl, hw⟩ := exists_cons_of_begins h
  obtain ⟨hnamed, hmonth, hrelative, hweekday⟩ := run_eq_none_of_beginsCount hw us
  simp only [reading_parse?, run_orElse, hnamed, hmonth, hday, hnumeric, hby, hrelative, hweekday,
    Option.or_none]

theorem run_monthFirst?_eq_none_of_append (h : (reading monthFirst?).run (ws ++ cut) = none) :
    (reading monthFirst?).run ws = none := by
  rw [run_reading_eq_none] at h ⊢
  cases ws with
  | nil => rfl
  | cons w ws =>
    cases w <;> first | rfl | skip
    simp only [List.cons_append, monthFirst?] at h
    split at h
    · cases h
    · split at h <;> cases h

theorem exists_number_of_run_numeric? (h : (reading numeric?).run ws = some (e, rest)) :
    ∃ n w us, (reading Number.parse?).run ws = some (n, w :: us) ∧ isDelimiter w = true := by
  rw [reading_numeric?, StateT.run_bind] at h
  obtain ⟨⟨n, us⟩, hnumber, h⟩ := Option.bind_eq_some_iff.1 h
  rw [StateT.run_bind] at h
  obtain ⟨⟨d, vs⟩, hmark, -⟩ := Option.bind_eq_some_iff.1 h
  obtain ⟨w, rfl, hw⟩ := exists_of_run_word hmark
  exact ⟨n, w, vs, hnumber, (Option.ite_none_right_eq_some.1 hw).1⟩

theorem begins_of_run_byDuration (h : byDuration.run ws = some (e, rest)) : Duration.Begins ws := by
  rw [byDuration, StateT.run_bind] at h
  obtain ⟨⟨d, us⟩, hduration, -⟩ := Option.bind_eq_some_iff.1 h
  exact Duration.begins_of_run hduration

theorem exists_of_run_monthFirst? (h : (reading monthFirst?).run ws = some (e, rest)) :
    ∃ m us, ws = .month m :: us := by
  rw [reading_monthFirst?, StateT.run_bind] at h
  obtain ⟨⟨m, us⟩, hmonth, -⟩ := Option.bind_eq_some_iff.1 h
  obtain ⟨w, rfl, hw⟩ := exists_of_run_word hmonth
  cases w <;> first | exact ⟨_, us, rfl⟩ | cases hw

/-- A date that is read in front of `cut` is read without it, if the words between them end a
date. -/
theorem run_of_append (hmid : Ends cut mid)
    (h : (reading parse?).run (ws ++ cut) = some (e, mid ++ cut)) :
    (reading parse?).run ws = some (e, mid) ∧ Number.Ends cut ws := by
  induction hlen : ws.length using Nat.strongRecOn generalizing ws e with
  | ind len ih =>
    subst hlen
    rw [reading_parse?] at h ⊢
    simp only [run_orElse, Option.or_eq_some_iff] at h ⊢
    rcases h with h | ⟨hnamed, h | ⟨hmonth, h | ⟨-, h | ⟨-, h | ⟨-, h | ⟨-, h⟩⟩⟩⟩⟩⟩
    · have h := run_word_of_append h
      obtain ⟨w, rfl, hw⟩ := exists_of_run_word h
      exact ⟨.inl h, .cons (by cases w <;> first | rfl | cases hw)⟩
    · have h := run_monthFirst?_of_append hmid h
      have hends : Number.Ends cut ws := by
        obtain ⟨m, us, rfl⟩ := exists_of_run_monthFirst? h
        exact .cons rfl
      exact ⟨.inr ⟨run_word_eq_none_of_append hnamed, .inl h⟩, hends⟩
    all_goals
      have hnamed := run_word_eq_none_of_append hnamed
      have hmonth := run_monthFirst?_eq_none_of_append hmonth
    · obtain ⟨h, hends⟩ := run_dayFirst?_of_append hmid h
      exact ⟨.inr ⟨hnamed, .inr ⟨hmonth, .inl h⟩⟩, hends⟩
    · obtain ⟨h, hends⟩ := run_numeric?_of_append hmid.number h
      obtain ⟨n, w, us, hnumber, hw⟩ := exists_number_of_run_numeric? h
      have hday := run_dayFirst?_of_number hnumber (by
        rintro v ⟨⟩
        cases w <;> first | rfl | cases hw)
      exact ⟨.inr ⟨hnamed, .inr ⟨hmonth, .inr ⟨hday, .inl h⟩⟩⟩, hends⟩
    · obtain ⟨h, hends⟩ :=
        run_byDuration_of_append (fun us f hus hrun => (ih us.length hus hrun rfl).1) h
      have hbegins := begins_of_run_byDuration h
      exact ⟨.inr ⟨hnamed, .inr ⟨hmonth, .inr ⟨run_dayFirst?_of_begins hbegins,
        .inr ⟨run_numeric?_of_begins hbegins, .inl h⟩⟩⟩⟩, hends⟩
    · have h := run_relative?_of_append h
      obtain ⟨w, us, rfl, hw⟩ : ∃ w us, ws = w :: us ∧ beginsCount w = false := by
        rw [reading_relative?, StateT.run_bind] at h
        obtain ⟨⟨r, us⟩, hrelative, -⟩ := Option.bind_eq_some_iff.1 h
        obtain ⟨w, rfl, hw⟩ := exists_of_run_word hrelative
        exact ⟨w, us, rfl, by cases w <;> first | rfl | cases hw⟩
      obtain ⟨hday, hnumeric, hduration, -⟩ := run_eq_none_of_head hw us
      exact ⟨.inr ⟨hnamed, .inr ⟨hmonth, .inr ⟨hday, .inr ⟨hnumeric, .inr ⟨hduration, .inl h⟩⟩⟩⟩⟩,
        .cons (by cases w <;> first | rfl | cases hw)⟩
    · have h := run_word_of_append h
      obtain ⟨w, rfl, hw⟩ := exists_of_run_word h
      have hcount : beginsCount w = false := by cases w <;> first | rfl | cases hw
      obtain ⟨hday, hnumeric, hduration, -⟩ := run_eq_none_of_head hcount mid
      have hrelative : (reading relative?).run (w :: mid) = none := by
        have hr : relativeWord? w = none := by cases w <;> first | rfl | cases hw
        simp [reading_relative?, hr]
      exact ⟨.inr ⟨hnamed, .inr ⟨hmonth, .inr ⟨hday, .inr ⟨hnumeric, .inr ⟨hduration,
        .inr ⟨hrelative, h⟩⟩⟩⟩⟩⟩, .cons (by cases w <;> first | rfl | cases hw)⟩

end DateExpr

end CasualDate
